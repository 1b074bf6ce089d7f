import Rustchat.MsgpackDecode

/-!
# What the decoder of binary frames reads

Read against the format, the decoder takes exactly the items without integers of eight bytes that the
stack and the memory of the machine are enough for: it answers the value of each and moves the index
behind it, and has no answer at any other item.
-/

namespace Rustchat.MsgpackDecode
open Msgpack Msgpack.Item

section Data
variable {machine : Machine} {bytes : List UInt8}

theorem fromUTF8_toUTF8 (s : String) : String.fromUTF8? ⟨s.toUTF8.data.toList.toArray⟩ = some s :=
  dif_pos (c := s.toByteArray.IsValidUTF8) s.isValidUTF8

theorem eq_of_fromUTF8 {e : List UInt8} {s : String} (h : String.fromUTF8? ⟨e.toArray⟩ = some s) :
    e = s.toUTF8.data.toList := by
  unfold String.fromUTF8? at h
  split at h
  · cases h; rfl
  · cases h

theorem length_toUTF8 (s : String) : s.toUTF8.data.toList.length = s.utf8ByteSize := rfl

theorem tame_decodeStr (len : Nat) : Tame bytes (decodeStr bytes len) :=
  (tame_readExact len).bind fun _ => (Tame.ofOption _).bind fun _ => .pure _

theorem yields_decodeStr (hn : bytes.length ≤ isizeMax) (s : String) :
    Yields bytes (decodeStr bytes s.utf8ByteSize) s.toUTF8.data.toList (.str s) := by
  have htext : Yields bytes
      (Reader.ofOption (String.fromUTF8? ⟨s.toUTF8.data.toList.toArray⟩) >>= fun text => pure (Json.str text)) [] (.str s) := by
    rw [fromUTF8_toUTF8]; exact .pure _
  have hy : Yields bytes (decodeStr bytes s.utf8ByteSize) (s.toUTF8.data.toList ++ []) (.str s) :=
    (yields_readExact hn (length_toUTF8 s)).bind htext
  rwa [List.append_nil] at hy

theorem takes_decodeStr (len : Nat) :
    Takes bytes (decodeStr bytes len) fun v e => ∃ s : String, v = .str s ∧ e = s.toUTF8.data.toList ∧
      len = s.utf8ByteSize := by
  refine (takes_readExact len).bind ?_
  rintro e _ ⟨rfl, rfl⟩
  refine Takes.bind (Takes.ofOption (P := fun s e' => e' = [] ∧ e = s.toUTF8.data.toList) fun s hs => ⟨rfl, eq_of_fromUTF8 hs⟩) ?_
  rintro s _ ⟨rfl, rfl⟩
  exact .pure ⟨s, rfl, by simp, rfl⟩

theorem tame_withCapacity (len : Nat) : Tame bytes (withCapacity machine len) := by
  intro idx r j hidx h
  rw [withCapacity] at h
  split_ifs at h
  cases h
  exact ⟨Nat.le_refl _, hidx⟩

theorem yields_withCapacity {len : Nat} (h : machine.allocates len) : Yields bytes (withCapacity machine len) [] () :=
  fun _ _ _ _ => if_pos h

theorem fails_withCapacity {len : Nat} (h : ¬ machine.allocates len) (e : List UInt8) :
    Fails bytes (withCapacity machine len) e := by
  intro idx _ _ _ a j ha
  rw [withCapacity, if_neg h] at ha
  cases ha

theorem takes_withCapacity (len : Nat) :
    Takes bytes (withCapacity machine len) fun _ e => e = [] := by
  intro idx a j h
  rw [withCapacity] at h
  split_ifs at h with hm
  cases h
  exact ⟨[], rfl, rfl, rfl⟩

theorem tame_decodeBin (len : Nat) : Tame bytes (decodeBinAsJsonArray machine bytes len) :=
  (tame_readExact len).bind fun _ => (tame_withCapacity len).bind fun _ => .pure _

theorem yields_decodeBin (hn : bytes.length ≤ isizeMax) {data : List UInt8} (h : machine.allocates data.length) :
    Yields bytes (decodeBinAsJsonArray machine bytes data.length) data (.arr (data.map fun b => .num b.toNat)) := by
  have hlast : Yields bytes (withCapacity machine data.length >>= fun _ => pure (Json.arr (data.map fun b => .num b.toNat)))
      [] (.arr (data.map fun b => .num b.toNat)) := (yields_withCapacity h).bind_pure
  have hy : Yields bytes (decodeBinAsJsonArray machine bytes data.length) (data ++ []) _ := (yields_readExact hn rfl).bind hlast
  rwa [List.append_nil] at hy

theorem fails_decodeBin (hn : bytes.length ≤ isizeMax) {data : List UInt8} (h : ¬ machine.allocates data.length) :
    Fails bytes (decodeBinAsJsonArray machine bytes data.length) data := by
  have hlast : Fails bytes (withCapacity machine data.length >>= fun _ => pure (Json.arr (data.map fun b => .num b.toNat)))
      [] := (fails_withCapacity h []).first
  have hf : Fails bytes (decodeBinAsJsonArray machine bytes data.length) (data ++ []) :=
    .bind (yields_readExact hn rfl) hlast
  rwa [List.append_nil] at hf

theorem takes_decodeBin (len : Nat) :
    Takes bytes (decodeBinAsJsonArray machine bytes len) fun v e => v = .arr (e.map fun b => .num b.toNat) ∧
      e.length = len := by
  refine (takes_readExact len).bind ?_
  rintro e _ ⟨rfl, rfl⟩
  refine (takes_withCapacity _).bind ?_
  rintro _ _ rfl
  exact .pure (by simp)

end Data

section Loops
variable {bytes : List UInt8} {item : Reader Json}

theorem tame_decodeItems (h : Tame bytes item) (len : Nat) : Tame bytes (decodeItems item len) := by
  induction len with
  | zero => exact .pure _
  | succ len ih => exact h.bind fun _ => ih.bind fun _ => .pure _

theorem tame_decodeFields (h : Tame bytes item) (len : Nat) (map : List (String × Json)) :
    Tame bytes (decodeFields item len map) := by
  induction len generalizing map with
  | zero => exact .pure _
  | succ len ih => exact h.bind fun v => (Tame.ofOption v.asStr).bind fun _ => h.bind fun _ => ih _

/-- The reader takes the item where it is one of the readable, and has no answer at it otherwise. -/
structure Reads (bytes : List UInt8) (item : Reader Json) (readable : Item → Prop) (m : Item) : Prop where
  yields : readable m → Yields bytes item m.bytes m.value
  fails : ¬ readable m → Fails bytes item m.bytes

section Reads
variable {readable : Item → Prop}

theorem yields_decodeItems {ms : List Item} (h : ∀ m ∈ ms, m.Legal → Reads bytes item readable m) (hl : ItemsLegal ms)
    (hr : ∀ m ∈ ms, readable m) : Yields bytes (decodeItems item ms.length) (itemsBytes ms) (values ms) := by
  induction ms with
  | nil => exact .pure _
  | cons m ms ih =>
    have hm := (h m List.mem_cons_self hl.1).yields (hr m List.mem_cons_self)
    have hrest := ih (fun m hm => h m (List.mem_cons_of_mem _ hm)) hl.2 fun m hm => hr m (List.mem_cons_of_mem _ hm)
    exact hm.bind hrest.bind_pure

theorem fails_decodeItems {ms : List Item} (h : ∀ m ∈ ms, m.Legal → Reads bytes item readable m) (hl : ItemsLegal ms)
    (hr : ¬ ∀ m ∈ ms, readable m) : Fails bytes (decodeItems item ms.length) (itemsBytes ms) := by
  induction ms with
  | nil => exact absurd (fun _ hm => nomatch hm) hr
  | cons m ms ih =>
    have hm := h m List.mem_cons_self hl.1
    by_cases hw : readable m
    · have hrest := ih (fun m hm => h m (List.mem_cons_of_mem _ hm)) hl.2 fun hall => hr (List.forall_mem_cons.2 ⟨hw, hall⟩)
      have hlast : Fails bytes (decodeItems item ms.length >>= fun items => pure (m.value :: items))
          (itemsBytes ms ++ []) := hrest.first
      rw [List.append_nil] at hlast
      exact .bind (hm.yields hw) hlast
    · exact (hm.fails hw).first

/-- An entry is readable if its key and its value are. -/
def EntryReadable (readable : Item → Prop) (e : (LenFormat × String) × Item) : Prop :=
  readable (.str e.1.1 e.1.2) ∧ readable e.2

theorem yields_decodeFields {es : List ((LenFormat × String) × Item)}
    (hk : ∀ w key, (Item.str w key).Legal → Reads bytes item readable (.str w key))
    (h : ∀ e ∈ es, e.2.Legal → Reads bytes item readable e.2) (hl : EntriesLegal es)
    (hr : ∀ e ∈ es, EntryReadable readable e) (map : List (String × Json)) :
    Yields bytes (decodeFields item es.length map) (entriesBytes es)
      ((fieldValues es).foldl (fun m f => Json.insertField f.1 f.2 m) map) := by
  induction es generalizing map with
  | nil => exact .pure _
  | cons e es ih =>
    obtain ⟨⟨w, key⟩, m⟩ := e
    obtain ⟨⟨hrk, hrm⟩, hres⟩ := List.forall_mem_cons.1 hr
    have hkey : Yields bytes item (strBytes w key) (.str key) := (hk w key hl.1).yields hrk
    have htext : Yields bytes (Reader.ofOption (Json.str key).asStr) [] key := .pure key
    have hm : Yields bytes item m.bytes m.value := (h _ List.mem_cons_self hl.2.1).yields hrm
    have hrest := ih (fun e he => h e (List.mem_cons_of_mem _ he)) hl.2.2 hres (Json.insertField key m.value map)
    exact hkey.bind (htext.bind_nil (hm.bind hrest))

theorem fails_decodeFields {es : List ((LenFormat × String) × Item)}
    (hk : ∀ w key, (Item.str w key).Legal → Reads bytes item readable (.str w key))
    (h : ∀ e ∈ es, e.2.Legal → Reads bytes item readable e.2) (hl : EntriesLegal es)
    (hr : ¬ ∀ e ∈ es, EntryReadable readable e) (map : List (String × Json)) :
    Fails bytes (decodeFields item es.length map) (entriesBytes es) := by
  induction es generalizing map with
  | nil => exact absurd (fun _ he => nomatch he) hr
  | cons e es ih =>
    obtain ⟨⟨w, key⟩, m⟩ := e
    have hkey := hk w key hl.1
    have hm : Reads bytes item readable m := h _ List.mem_cons_self hl.2.1
    by_cases hrk : readable (.str w key)
    · have hrest : Fails bytes
          (item >>= fun value => decodeFields item es.length (Json.insertField key value map)) (m.bytes ++ entriesBytes es) := by
        by_cases hrm : readable m
        · have hes := ih (fun e he => h e (List.mem_cons_of_mem _ he)) hl.2.2
            (fun hall => hr (List.forall_mem_cons.2 ⟨⟨hrk, hrm⟩, hall⟩)) (Json.insertField key m.value map)
          exact .bind (hm.yields hrm) hes
        · exact (hm.fails hrm).first
      exact .bind (hkey.yields hrk) hrest
    · exact (hkey.fails hrk).first

end Reads

/-- What stands for an answer: a legal and narrow item with that value. -/
def ItemOf (v : Json) (e : List UInt8) : Prop := ∃ m : Item, m.Legal ∧ m.Narrow ∧ m.value = v ∧ m.bytes = e

theorem takes_decodeItems (h : Takes bytes item ItemOf) (len : Nat) :
    Takes bytes (decodeItems item len) fun vs e =>
      ∃ ms, ms.length = len ∧ ItemsLegal ms ∧ ItemsNarrow ms ∧ values ms = vs ∧ itemsBytes ms = e := by
  induction len with
  | zero => exact .pure ⟨[], rfl, trivial, trivial, rfl, rfl⟩
  | succ len ih =>
    refine h.bind ?_
    rintro _ _ ⟨m, hl, hs, rfl, rfl⟩
    refine ih.bind ?_
    rintro _ _ ⟨ms, rfl, hls, hss, rfl, rfl⟩
    exact .pure ⟨m :: ms, rfl, ⟨hl, hls⟩, ⟨hs, hss⟩, rfl, by rw [List.append_nil]; rfl⟩

theorem str_of_value {m : Item} {key : String} (h : m.value.asStr = some key) : ∃ w, m = .str w key := by
  cases m with
  | str w s => cases h; exact ⟨w, rfl⟩
  | nil | bool | int | bin | arr | map => cases h

theorem takes_decodeFields (h : Takes bytes item ItemOf) (len : Nat) (map : List (String × Json)) :
    Takes bytes (decodeFields item len map) fun map' e =>
      ∃ es, es.length = len ∧ EntriesLegal es ∧ EntriesNarrow es ∧
        (fieldValues es).foldl (fun m f => Json.insertField f.1 f.2 m) map = map' ∧ entriesBytes es = e := by
  induction len generalizing map with
  | zero => exact .pure ⟨[], rfl, trivial, trivial, rfl, rfl⟩
  | succ len ih =>
    refine h.bind ?_
    rintro _ _ ⟨k, hk, -, rfl, rfl⟩
    refine Takes.bind (Takes.ofOption (P := fun key e => e = [] ∧ k.value.asStr = some key) fun key hkey => ⟨rfl, hkey⟩) ?_
    rintro key _ ⟨rfl, hkey⟩
    obtain ⟨w, rfl⟩ := str_of_value hkey
    refine h.bind ?_
    rintro _ _ ⟨m, hl, hs, rfl, rfl⟩
    refine (ih _).mono ?_
    rintro _ _ ⟨es, rfl, hls, hss, rfl, rfl⟩
    exact ⟨((w, key), m) :: es, rfl, ⟨hk, hl, hls⟩, ⟨hs, hss⟩, rfl, rfl⟩

end Loops

/-! ### One item -/

section Step
variable {machine : Machine} {bytes : List UInt8} (hn : bytes.length ≤ isizeMax) {item : Reader Json}

theorem tame_decodeBody (h : Tame bytes item) (kind : Kind) (len : Nat) :
    Tame bytes (decodeBody machine bytes item kind len) := by
  cases kind with
  | str => exact tame_decodeStr len
  | bin => exact tame_decodeBin len
  | arr => exact (tame_withCapacity len).bind fun _ => (tame_decodeItems h len).bind fun _ => .pure _
  | map => exact (tame_decodeFields h len []).bind fun _ => .pure _

def BodyOf (kind : Kind) (len : Nat) (v : Json) (e : List UInt8) : Prop :=
  ∀ format, len < kind.limit format → ItemOf v (kind.head format len ++ e)

theorem takes_decodeBody (h : Takes bytes item ItemOf) (kind : Kind) (len : Nat) :
    Takes bytes (decodeBody machine bytes item kind len) (BodyOf kind len) := by
  cases kind with
  | str =>
    refine (takes_decodeStr len).mono ?_
    rintro _ _ ⟨s, rfl, rfl, rfl⟩ format hf
    exact ⟨.str format s, hf, trivial, rfl, rfl⟩
  | bin =>
    refine (takes_decodeBin len).mono ?_
    rintro _ e ⟨rfl, rfl⟩ format hf
    exact ⟨.bin format e, hf, trivial, rfl, rfl⟩
  | arr =>
    refine (takes_withCapacity len).bind ?_
    rintro _ _ rfl
    refine (takes_decodeItems h len).bind ?_
    rintro _ _ ⟨ms, rfl, hl, hs, rfl, rfl⟩
    refine .pure fun format hf => ⟨.arr format ms, ⟨hf, hl⟩, hs, rfl, ?_⟩
    rw [List.append_nil]; rfl
  | map =>
    refine (takes_decodeFields h len []).bind ?_
    rintro _ _ ⟨es, rfl, hl, hs, rfl, rfl⟩
    refine .pure fun format hf => ⟨.map format es, ⟨hf, hl⟩, hs, rfl, ?_⟩
    rw [List.append_nil]; rfl

include hn

theorem tame_branch (h : Tame bytes item) {marker : Nat} {x : Reader Json} (hb : Branch machine bytes item marker x) :
    Tame bytes x := by
  cases hb with
  | posFix | negFix | nil | bool => exact .pure _
  | unsigned => exact (tame_readUnsigned hn).bind fun _ => .pure _
  | signed => exact (tame_readSigned hn).bind fun _ => .pure _
  | fix kind n => exact tame_decodeBody h kind n
  | sized kind => exact (tame_readUnsigned hn).bind (tame_decodeBody h kind)
  | other => exact .ofOption none

theorem takes_branch (h : Takes bytes item ItemOf) {marker : Nat} (hm : marker < 256) {x : Reader Json}
    (hb : Branch machine bytes item marker x) : Takes bytes x fun v e => ItemOf v (UInt8.ofNat marker :: e) := by
  cases hb with
  | posFix _ hlt =>
    exact .pure ⟨.int .posFix marker, ⟨Int.natCast_nonneg marker, by omega⟩, ⟨nofun, nofun⟩, rfl, rfl⟩
  | negFix _ hle =>
    have hint : (BitVec.ofNat 8 marker).toInt = marker - 256 := by
      rw [BitVec.toInt_eq_toNat_cond, BitVec.toNat_ofNat, Nat.mod_eq_of_lt hm, if_neg (by omega)]; rfl
    refine .pure ⟨.int .negFix (marker - 256), ⟨by omega, by omega⟩, ⟨nofun, nofun⟩, by rw [hint]; rfl, ?_⟩
    show [UInt8.ofNat (marker - 256 + 256 : Int).toNat] = [UInt8.ofNat marker]
    rw [Int.sub_add_cancel, Int.toNat_natCast]
  | nil => exact .pure ⟨.nil, trivial, trivial, rfl, rfl⟩
  | bool b => exact .pure ⟨.bool b, trivial, trivial, rfl, by cases b <;> rfl⟩
  | unsigned size hs =>
    refine (takes_readUnsigned hn).bind ?_
    rintro n _ ⟨rfl, hlt⟩
    refine .pure ⟨.int (.unsigned size) n, ⟨Int.natCast_nonneg n, by exact_mod_cast hlt⟩, ⟨?_, nofun⟩,
      rfl, ?_⟩
    · rintro ⟨⟩; exact hs rfl
    · rw [List.append_nil]; rfl
  | signed size hs =>
    refine (takes_readSigned hn).bind ?_
    rintro n _ ⟨rfl, hholds⟩
    refine .pure ⟨.int (.signed size) n, hholds, ⟨nofun, ?_⟩, rfl, ?_⟩
    · rintro ⟨⟩; exact hs rfl
    · rw [List.append_nil]; rfl
  | fix kind n hlt => exact (takes_decodeBody h kind n).mono fun v e hb => hb .fix hlt
  | sized kind format size hf hpos =>
    refine (takes_readUnsigned hn).bind ?_
    rintro n _ ⟨rfl, hlt⟩
    refine (takes_decodeBody h kind n).mono fun v e hb => ?_
    have hitem := hb format (Kind.limit_eq hf hpos ▸ hlt)
    rwa [Kind.head_sized hf] at hitem
  | other => exact .none

/-! The other direction, by the marker an item starts with. -/

theorem yields_marked {marker : Nat} (hm : marker < 256) {stack : Nat} {e : List UInt8} {v : Json}
    (h : Yields bytes (decodeMarked machine bytes (decodeMsgpackAt machine bytes stack) marker) e v) :
    Yields bytes (decodeMsgpackAt machine bytes (stack + 1)) (UInt8.ofNat marker :: e) v := by
  refine (yields_readU8 hn (UInt8.ofNat marker)).bind ?_
  rwa [UInt8.toNat_ofNat', Nat.mod_eq_of_lt hm]

theorem fails_marked {marker : Nat} (hm : marker < 256) {stack : Nat} {e : List UInt8}
    (h : Fails bytes (decodeMarked machine bytes (decodeMsgpackAt machine bytes stack) marker) e) :
    Fails bytes (decodeMsgpackAt machine bytes (stack + 1)) (UInt8.ofNat marker :: e) := by
  refine .bind (yields_readU8 hn (UInt8.ofNat marker)) ?_
  rwa [UInt8.toNat_ofNat', Nat.mod_eq_of_lt hm]

omit hn in
theorem decodeMarked_unsigned (size : Size) :
    decodeMarked machine bytes item (0xcc + size.code) = readUnsigned bytes size >>= fun n => pure (.num n) := by
  cases size with
  | b1 => exact (readUnsigned_b1 fun n => pure (Json.num n)).symm
  | b2 | b4 | b8 => rfl

omit hn in
theorem decodeMarked_signed (size : Size) :
    decodeMarked machine bytes item (0xd0 + size.code) = readSigned bytes size >>= fun n => pure (.num n) := by
  cases size <;> rfl

omit hn in
theorem decodeMarked_fix {kind : Kind} {len : Nat} (h : len < kind.limit .fix) :
    decodeMarked machine bytes item (kind.marker .fix + len) = decodeBody machine bytes item kind len := by
  cases kind with
  | bin => cases h
  | str =>
    have hlt : len < 32 := h
    show decodeMarked machine bytes item (0xa0 + len) = decodeStr bytes len
    simp (disch := omega) only [decodeMarked, if_neg, if_pos, Nat.add_sub_cancel_left]
  | arr =>
    have hlt : len < 16 := h
    show decodeMarked machine bytes item (0x90 + len) = decodeArray machine item len
    simp (disch := omega) only [decodeMarked, if_neg, if_pos, Nat.add_sub_cancel_left]
  | map =>
    have hlt : len < 16 := h
    show decodeMarked machine bytes item (0x80 + len) = decodeMap item len
    simp (disch := omega) only [decodeMarked, if_neg, if_pos, Nat.add_sub_cancel_left]

omit hn in
theorem decodeMarked_sized {kind : Kind} {format : LenFormat} {size : Size} (hf : format.size = some size)
    (h : 0 < kind.limit format) :
    decodeMarked machine bytes item (kind.marker format) = readUnsigned bytes size >>= decodeBody machine bytes item kind := by
  cases format with
  | fix => cases hf
  | w8 =>
    cases hf
    rw [readUnsigned_b1]
    cases kind with
    | str | bin => rfl
    | arr | map => cases h
  | w16 | w32 => cases hf; cases kind <;> rfl

/-! The parts of an item read, or refused, as they stand in the format. -/

theorem decodeMsgpackAt_head {kind : Kind} {format : LenFormat} {len : Nat} (h : len < kind.limit format) {stack idx : Nat}
    {e : List UInt8} (hidx : idx ≤ bytes.length) (he : bytes.drop idx = kind.head format len ++ e) :
    decodeMsgpackAt machine bytes (stack + 1) idx =
      decodeBody machine bytes (decodeMsgpackAt machine bytes stack) kind len (idx + (kind.head format len).length) := by
  have marked {marker : Nat} (hm : marker < 256) {e : List UInt8} (he : bytes.drop idx = UInt8.ofNat marker :: e) :
      decodeMsgpackAt machine bytes (stack + 1) idx =
        decodeMarked machine bytes (decodeMsgpackAt machine bytes stack) marker (idx + 1) := by
    have hread := Reader.bind_some (f := fun b => decodeMarked machine bytes (decodeMsgpackAt machine bytes stack) b.toNat)
      (yields_readU8 hn (UInt8.ofNat marker) idx e hidx he)
    rwa [UInt8.toNat_ofNat', Nat.mod_eq_of_lt hm] at hread
  cases hf : format.size with
  | none =>
    obtain rfl := eq_fix_of_size hf
    rw [marked (Kind.marker_add_lt h) he, decodeMarked_fix h]
    rfl
  | some size =>
    have hpos : 0 < kind.limit format := Nat.zero_lt_of_lt h
    have hs : size ≠ .b8 := by rintro rfl; cases format <;> cases hf
    rw [Kind.head_sized hf] at he ⊢
    have hlt : idx < bytes.length := by
      have hle := add_length_le (e := [UInt8.ofNat (kind.marker format)]) hidx he
      exact hle
    have hlen := yields_readUnsigned hn hs (Kind.limit_eq hf hpos ▸ h) (idx + 1) e hlt
      (drop_of_append (e := [UInt8.ofNat (kind.marker format)]) he)
    rw [marked (Kind.marker_lt kind format) he, decodeMarked_sized hf hpos, Reader.bind_some hlen, List.length_cons,
      Nat.add_assoc, Nat.add_comm 1]

theorem yields_head {kind : Kind} {format : LenFormat} {len : Nat} (h : len < kind.limit format) {stack : Nat}
    {e : List UInt8} {v : Json} (hb : Yields bytes (decodeBody machine bytes (decodeMsgpackAt machine bytes stack) kind len) e v) :
    Yields bytes (decodeMsgpackAt machine bytes (stack + 1)) (kind.head format len ++ e) v := by
  intro idx rest hidx he
  rw [List.append_assoc] at he
  rw [decodeMsgpackAt_head hn h hidx he, hb _ rest (add_length_le hidx he) (drop_of_append he), List.length_append,
    Nat.add_assoc]

theorem fails_head {kind : Kind} {format : LenFormat} {len : Nat} (h : len < kind.limit format) {stack : Nat}
    {e : List UInt8} (hb : Fails bytes (decodeBody machine bytes (decodeMsgpackAt machine bytes stack) kind len) e) :
    Fails bytes (decodeMsgpackAt machine bytes (stack + 1)) (kind.head format len ++ e) := by
  intro idx rest hidx he
  rw [List.append_assoc] at he
  rw [decodeMsgpackAt_head hn h hidx he]
  exact hb _ rest (add_length_le hidx he) (drop_of_append he)

/-- An item that the machine has the stack and the memory for and the decoder the formats. -/
def Readable (machine : Machine) (stack : Nat) (m : Item) : Prop :=
  m.Narrow ∧ m.depth ≤ stack ∧ m.Granted machine.allocates

omit hn in
theorem readable_bin {stack : Nat} {w : LenFormat} {data : List UInt8} :
    Readable machine (stack + 1) (.bin w data) ↔ machine.allocates data.length := by
  rw [Readable, Narrow, depth, Granted]
  exact ⟨fun h => h.2.2, fun h => ⟨trivial, by omega, h⟩⟩

omit hn in
theorem readable_arr {stack : Nat} {w : LenFormat} {items : List Item} :
    Readable machine (stack + 1) (.arr w items) ↔
      machine.allocates items.length ∧ ∀ m ∈ items, Readable machine stack m := by
  rw [Readable, Narrow, depth, Granted, itemsNarrow_iff, itemsGranted_iff, Nat.add_le_add_iff_right, itemsDepth_le_iff]
  constructor
  · rintro ⟨hnarrow, hdepth, ha, hgranted⟩
    exact ⟨ha, fun m hm => ⟨hnarrow m hm, hdepth m hm, hgranted m hm⟩⟩
  · rintro ⟨ha, h⟩
    exact ⟨fun m hm => (h m hm).1, fun m hm => (h m hm).2.1, ha, fun m hm => (h m hm).2.2⟩

omit hn in
theorem readable_str {stack : Nat} {w : LenFormat} {s : String} : Readable machine stack (.str w s) ↔ 0 < stack := by
  rw [Readable, Narrow, depth, Granted]
  exact ⟨fun h => h.2.1, fun h => ⟨trivial, h, trivial⟩⟩

omit hn in
theorem readable_map {stack : Nat} {w : LenFormat} {entries : List ((LenFormat × String) × Item)} :
    Readable machine (stack + 1) (.map w entries) ↔ ∀ e ∈ entries, EntryReadable (Readable machine stack) e := by
  rw [Readable, Narrow, depth, Granted, entriesNarrow_iff, entriesGranted_iff, Nat.add_le_add_iff_right, entriesDepth_le_iff]
  constructor
  · rintro ⟨hnarrow, hdepth, hgranted⟩ e he
    have hkey : Readable machine stack (.str e.1.1 e.1.2) :=
      readable_str.2 (Nat.lt_of_lt_of_le e.2.depth_pos (hdepth e he))
    exact ⟨hkey, hnarrow e he, hdepth e he, hgranted e he⟩
  · intro h
    exact ⟨fun e he => (h e he).2.1, fun e he => (h e he).2.2.1, fun e he => (h e he).2.2.2⟩

theorem reads_string {w : LenFormat} {s : String} (hl : (Item.str w s).Legal) (stack : Nat) :
    Reads bytes (decodeMsgpackAt machine bytes stack) (Readable machine stack) (.str w s) := by
  cases stack with
  | zero => exact ⟨fun h => absurd (readable_str.1 h) (Nat.lt_irrefl 0), fun _ _ _ _ _ _ _ h => nomatch h⟩
  | succ stack =>
    exact ⟨fun _ => yields_head hn hl (yields_decodeStr hn s), fun h => absurd (readable_str.2 (Nat.succ_pos stack)) h⟩

theorem reads_int {f : IntFormat} {n : Int} (h : f.Holds n) {stack : Nat} :
    Reads bytes (decodeMsgpackAt machine bytes (stack + 1)) (Readable machine (stack + 1)) (.int f n) := by
  have hread : Readable machine (stack + 1) (.int f n) ↔ f ≠ .unsigned .b8 ∧ f ≠ .signed .b8 := by
    rw [Readable, Narrow, depth, Granted]
    exact ⟨fun h => h.1, fun h => ⟨h, by omega, trivial⟩⟩
  cases f with
  | posFix =>
    refine ⟨fun _ => ?_, fun hw => absurd (hread.2 (by simp)) hw⟩
    have hlt : n.toNat < 128 := by have := h.2; omega
    refine yields_marked hn (Nat.lt_trans hlt (by decide)) ?_
    rw [decodeMarked, if_pos (Nat.le_of_lt_succ hlt), Int.toNat_of_nonneg h.1]
    exact .pure _
  | negFix =>
    refine ⟨fun _ => ?_, fun hw => absurd (hread.2 (by simp)) hw⟩
    have hbounds : -32 ≤ n ∧ n < 0 := h
    refine yields_marked hn (by omega : (n + 256).toNat < 256) ?_
    have hint : (BitVec.ofNat 8 (n + 256).toNat).toInt = n := by
      rw [BitVec.toInt_eq_toNat_cond, BitVec.toNat_ofNat, Nat.mod_eq_of_lt (by omega), if_neg (by omega),
        Int.toNat_of_nonneg (by omega)]
      exact Int.add_sub_cancel ..
    rw [decodeMarked, if_neg (by omega), if_pos (by omega), hint]
    exact .pure _
  | unsigned size =>
    have hlt : n.toNat < 2 ^ (8 * size.bytes) := (Int.toNat_lt h.1).2 (by push_cast; exact h.2)
    have hm : 0xcc + size.code < 256 := by cases size <;> decide
    refine ⟨fun hw => yields_marked hn hm ?_, fun hw => fails_marked hn hm ?_⟩
    · have hs := (hread.1 hw).1
      have hy : Yields bytes (readUnsigned bytes size >>= fun n => pure (Json.num n)) _ _ :=
        (yields_readUnsigned hn (fun h => hs (congrArg _ h)) hlt).bind_pure
      rw [decodeMarked_unsigned]
      rwa [Int.toNat_of_nonneg h.1] at hy
    · cases size with
      | b8 => exact .none
      | b1 | b2 | b4 => exact absurd (hread.2 (by simp)) hw
  | signed size =>
    have hm : 0xd0 + size.code < 256 := by cases size <;> decide
    refine ⟨fun hw => yields_marked hn hm ?_, fun hw => fails_marked hn hm ?_⟩
    · have hs := (hread.1 hw).2
      rw [decodeMarked_signed]
      exact (yields_readSigned hn (fun h => hs (congrArg _ h)) h).bind_pure
    · cases size with
      | b8 => exact .none
      | b1 | b2 | b4 => exact absurd (hread.2 (by simp)) hw

end Step

/-! ### The whole input -/

section Input
variable {machine : Machine} {bytes : List UInt8} (hn : bytes.length ≤ isizeMax)
include hn

theorem tame_decodeMsgpackAt (stack : Nat) : Tame bytes (decodeMsgpackAt machine bytes stack) := by
  induction stack with
  | zero => exact fun _ _ _ _ h => nomatch h
  | succ stack ih => exact (tame_readU8 hn).bind fun b => tame_branch hn ih (decodeMarked_branch b.toNat)

theorem takes_decodeMsgpackAt (stack : Nat) : Takes bytes (decodeMsgpackAt machine bytes stack) ItemOf := by
  induction stack with
  | zero => exact fun _ _ _ h => nomatch h
  | succ stack ih =>
    refine (takes_readU8 hn).bind ?_
    rintro b _ rfl
    have hb : Takes bytes (decodeMarked machine bytes (decodeMsgpackAt machine bytes stack) b.toNat) _ :=
      takes_branch hn ih b.toNat_lt (decodeMarked_branch b.toNat)
    rwa [UInt8.ofNat_toNat] at hb

omit hn in
theorem reads_zero (m : Item) : Reads bytes (decodeMsgpackAt machine bytes 0) (Readable machine 0) m :=
  ⟨fun h => absurd h.2.1 (Nat.not_le.2 m.depth_pos), fun _ _ _ _ _ _ _ h => nomatch h⟩

theorem reads_decodeMsgpackAt (m : Item) (hl : m.Legal) (stack : Nat) :
    Reads bytes (decodeMsgpackAt machine bytes stack) (Readable machine stack) m := by
  have leaf {m : Item} {stack : Nat} (hd : m.depth = 1) (hs : m.Narrow) (hg : m.Granted machine.allocates) :
      Readable machine (stack + 1) m := ⟨hs, by omega, hg⟩
  induction m using Item.induction generalizing stack with
  | nil =>
    cases stack with
    | zero => exact reads_zero _
    | succ stack =>
      exact ⟨fun _ => yields_marked hn (by decide : 0xc0 < 256) (.pure _), fun h => absurd (leaf (m := .nil) rfl trivial trivial) h⟩
  | bool b =>
    cases stack with
    | zero => exact reads_zero _
    | succ stack =>
      refine ⟨fun _ => ?_, fun h => absurd (leaf (m := .bool b) rfl trivial trivial) h⟩
      cases b with
      | false => exact yields_marked hn (by decide : 0xc2 < 256) (.pure _)
      | true => exact yields_marked hn (by decide : 0xc3 < 256) (.pure _)
  | int f n =>
    cases stack with
    | zero => exact reads_zero _
    | succ stack => exact reads_int hn hl
  | str w s => exact reads_string hn hl stack
  | bin w data =>
    cases stack with
    | zero => exact reads_zero _
    | succ stack =>
      exact ⟨fun h => yields_head hn hl (yields_decodeBin hn (readable_bin.1 h)),
        fun h => fails_head hn hl (fails_decodeBin hn fun ha => h (readable_bin.2 ha))⟩
  | arr w items ih =>
    cases stack with
    | zero => exact reads_zero _
    | succ stack =>
      have hitems := fun m hm hml => ih m hm hml stack
      refine ⟨fun h => ?_, fun h => fails_head hn hl.1 ?_⟩
      · obtain ⟨ha, hr⟩ := readable_arr.1 h
        exact yields_head hn hl.1 ((yields_withCapacity ha).bind_nil (yields_decodeItems hitems hl.2 hr).bind_pure)
      · by_cases ha : machine.allocates items.length
        · have hr : Fails bytes (decodeItems (decodeMsgpackAt machine bytes stack) items.length) (itemsBytes items) :=
            fails_decodeItems hitems hl.2 fun hr => h (readable_arr.2 ⟨ha, hr⟩)
          have hrest : Fails bytes (decodeItems (decodeMsgpackAt machine bytes stack) items.length >>= fun items =>
              pure (Json.arr items)) (itemsBytes items ++ []) := hr.first
          rw [List.append_nil] at hrest
          exact .bind (yields_withCapacity ha) hrest
        · exact Fails.first (e := []) (fails_withCapacity ha _)
  | map w entries ih =>
    cases stack with
    | zero => exact reads_zero _
    | succ stack =>
      have hentries := fun e he hel => ih e he hel stack
      have hkeys (w : LenFormat) (key : String) (hk : (Item.str w key).Legal) :
          Reads bytes (decodeMsgpackAt machine bytes stack) (Readable machine stack) (.str w key) := reads_string hn hk stack
      refine ⟨fun h => ?_, fun h => fails_head hn hl.1 ?_⟩
      · exact yields_head hn hl.1 (yields_decodeFields hkeys hentries hl.2 (readable_map.1 h) []).bind_pure
      · have hr : Fails bytes (decodeMap (decodeMsgpackAt machine bytes stack) entries.length) (entriesBytes entries ++ []) :=
          (fails_decodeFields hkeys hentries hl.2 (fun hr => h (readable_map.2 hr)) []).first
        rwa [List.append_nil] at hr

theorem reads_decode {m : Item} (hl : m.Legal) :
    Reads bytes (decode machine bytes) (Readable machine machine.stack) m :=
  reads_decodeMsgpackAt hn m hl machine.stack

theorem item_of_decode {idx j : Nat} {v : Json} (h : decode machine bytes idx = .ok (some v, j)) :
    ∃ m : Item, m.Legal ∧ m.Narrow ∧ m.value = v ∧ bytes.drop idx = m.bytes ++ bytes.drop j ∧
      j = idx + m.bytes.length := by
  obtain ⟨_, he, hj, m, hl, hs, hv, rfl⟩ := takes_decodeMsgpackAt hn machine.stack idx v j h
  exact ⟨m, hl, hs, hv, he, hj⟩

end Input

section Encodings
variable {machine : Machine}

theorem decode_item {m : Item} (hl : m.Legal) (hr : Readable machine machine.stack m) (rest : List UInt8)
    (hn : (m.bytes ++ rest).length ≤ isizeMax) :
    decode machine (m.bytes ++ rest) 0 = .ok (some m.value, m.bytes.length) := by
  have h := (reads_decode hn hl).yields hr 0 rest (Nat.zero_le _) rfl
  rwa [Nat.zero_add] at h

/-- An encoding is read back exactly if none of its integers takes eight bytes, its items nest no deeper than the
stack takes, and its arrays are no longer than the memory allows. -/
theorem decode_encoding_iff (v : Json) (m : Item) (h : m.Encodes v) (rest : List UInt8)
    (hn : (m.bytes ++ rest).length ≤ isizeMax) :
    decode machine (m.bytes ++ rest) 0 = .ok (some v, m.bytes.length) ↔
      m.Narrow ∧ m.depth ≤ machine.stack ∧ m.Granted machine.allocates := by
  obtain ⟨hl, rfl⟩ := legal_of_encodes m v h
  refine ⟨fun hd => ?_, fun hr => decode_item hl hr rest hn⟩
  by_contra hr
  exact (reads_decode hn hl).fails hr 0 rest (Nat.zero_le _) rfl _ _ hd

end Encodings

/-- A machine with room for a thousand calls and vectors of a million values. -/
def smallMachine : Machine := ⟨1000, fun len => decide (len ≤ 1000000)⟩

/-- An object with one field in the widths a writer is free to choose, and a byte behind it. -/
def anObject : Item := .map .w16 [((.fix, "a"), .arr .fix [.int (.unsigned .b2) 200, .nil])]

theorem decode_anObject :
    decode smallMachine (anObject.bytes ++ [0xff]) 0 =
      .ok (some (.obj [("a", .arr [.num 200, .null])]), anObject.bytes.length) := by
  have hitems : ItemsEncode [.int (.unsigned .b2) 200, .nil] [.num 200, .null] :=
    ⟨_, _, rfl, ⟨⟨by decide, by decide⟩, rfl⟩, _, _, rfl, rfl, rfl⟩
  have h : anObject.Encodes (.obj [("a", .arr [.num 200, .null])]) :=
    ⟨by decide, _, _, rfl, List.pairwise_singleton .., .refl _, _, _, rfl, by decide,
      ⟨by decide, _, rfl, hitems⟩, rfl⟩
  exact (decode_encoding_iff _ anObject h [0xff] (by decide)).2
    ⟨⟨⟨⟨nofun, nofun⟩, trivial, trivial⟩, trivial⟩, by decide, ⟨by decide, trivial, trivial, trivial⟩, trivial⟩

/-- `2 ^ 32` needs eight bytes. -/
theorem eight_bytes_refused :
    ¬ ∀ (v : Json) (m : Item), m.Encodes v → ∀ rest, (m.bytes ++ rest).length ≤ isizeMax →
      decode smallMachine (m.bytes ++ rest) 0 = .ok (some v, m.bytes.length) := by
  intro h
  have hd := h (.num (2 ^ 32)) (.int (.unsigned .b8) (2 ^ 32)) ⟨⟨by decide, by decide⟩, rfl⟩ [] (by decide)
  have hnone : decode smallMachine ((Item.int (.unsigned .b8) (2 ^ 32)).bytes ++ []) 0 = .ok (none, 1) := rfl
  rw [hnone] at hd
  cases hd

end Rustchat.MsgpackDecode
