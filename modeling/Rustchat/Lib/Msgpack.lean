import Mathlib.Data.String.Basic
import Rustchat.Lib.Json

/-!
# The MessagePack format

An `Item` is an encoded value together with the format chosen for each of its parts: an integer may
stand in every width that holds it, a length in every width of its kind. `bytes` writes an item down,
and `Encodes` says which JSON value it stands for: the fields of an object in any order, each once.
`value` reads an item more freely: binary data as the array of its bytes, and the later of two entries
with the same key.
-/

namespace Json

/-- The fields of an object sorted by key, as a map keeps them. -/
def SortedFields (fields : List (String × Json)) : Prop := fields.Pairwise (·.1 < ·.1)

def ofFields (fields : List (String × Json)) : List (String × Json) :=
  fields.foldl (fun m f => insertField f.1 f.2 m) []

theorem insertField_perm {key : String} {fields : List (String × Json)} (h : key ∉ fields.map (·.1)) (value : Json) :
    (insertField key value fields).Perm ((key, value) :: fields) := by
  induction fields with
  | nil => exact .refl _
  | cons f fields ih =>
    obtain ⟨hne, hrest⟩ := List.ne_and_not_mem_of_not_mem_cons h
    rw [insertField]
    split_ifs with hlt
    · exact .refl _
    · exact ((ih hrest).cons f).trans (.swap ..)

theorem sortedFields_insertField {key : String} {fields : List (String × Json)} (hs : SortedFields fields)
    (h : key ∉ fields.map (·.1)) (value : Json) : SortedFields (insertField key value fields) := by
  induction fields with
  | nil => exact List.pairwise_singleton ..
  | cons f fields ih =>
    obtain ⟨hf, hs'⟩ := List.pairwise_cons.1 hs
    obtain ⟨hne, hrest⟩ := List.ne_and_not_mem_of_not_mem_cons h
    rw [insertField]
    split_ifs with hlt
    · refine List.pairwise_cons.2 ⟨fun g hg => ?_, hs⟩
      rcases List.mem_cons.1 hg with rfl | hg
      · exact hlt
      · exact lt_trans hlt (hf g hg)
    · refine List.pairwise_cons.2 ⟨fun g hg => ?_, ih hs' hrest⟩
      rcases List.mem_cons.1 ((insertField_perm hrest value).mem_iff.1 hg) with rfl | hg
      · exact lt_of_le_of_ne (not_lt.1 hlt) (Ne.symm hne)
      · exact hf g hg

theorem foldl_insertField (es : List (String × Json)) {m : List (String × Json)} (hm : SortedFields m)
    (hd : (es.map (·.1) ++ m.map (·.1)).Nodup) :
    SortedFields (es.foldl (fun m f => insertField f.1 f.2 m) m) ∧
      (es.foldl (fun m f => insertField f.1 f.2 m) m).Perm (es ++ m) := by
  induction es generalizing m with
  | nil => exact ⟨hm, .refl _⟩
  | cons e es ih =>
    rw [List.map_cons, List.cons_append, List.nodup_cons, List.mem_append, not_or] at hd
    have hperm := insertField_perm hd.1.2 e.2
    have hnext : (es.map (·.1) ++ (insertField e.1 e.2 m).map (·.1)).Nodup := by
      refine (((hperm.map (·.1)).append_left _).nodup_iff).2 ?_
      rw [List.map_cons]
      exact List.perm_middle.nodup_iff.2 (List.nodup_cons.2 ⟨fun h => (List.mem_append.1 h).elim hd.1.1 hd.1.2, hd.2⟩)
    obtain ⟨hsorted, hall⟩ := ih (sortedFields_insertField hm hd.1.2 e.2) hnext
    exact ⟨hsorted, hall.trans ((hperm.append_left es).trans List.perm_middle)⟩

theorem ofFields_eq {entered fields : List (String × Json)} (hs : SortedFields fields) (hp : entered.Perm fields) :
    ofFields entered = fields := by
  have hnodup : (entered.map (·.1)).Nodup :=
    ((hp.map (·.1)).nodup_iff).2 (List.pairwise_map.2 (hs.imp ne_of_lt))
  obtain ⟨hsorted, hall⟩ := foldl_insertField entered (m := []) List.Pairwise.nil (by simpa using hnodup)
  rw [List.append_nil] at hall
  exact (hall.trans hp).eq_of_pairwise (fun a b _ _ hab hba => absurd hba (lt_asymm hab)) hsorted hs

end Json

namespace Msgpack

/-- The `k` low bytes of a number, the highest first. -/
def be : Nat → Nat → List UInt8
  | 0, _ => []
  | k + 1, n => UInt8.ofNat (n / 256 ^ k) :: be k n

def ofBe : List UInt8 → Nat
  | [] => 0
  | b :: bs => b.toNat * 256 ^ bs.length + ofBe bs

@[simp] theorem length_be (k n : Nat) : (be k n).length = k := by
  induction k with
  | zero => rfl
  | succ k ih => rw [be, List.length_cons, ih]

theorem ofBe_lt (bs : List UInt8) : ofBe bs < 256 ^ bs.length := by
  induction bs with
  | nil => exact Nat.one_pos
  | cons b bs ih =>
    have hb := b.toNat_lt
    calc b.toNat * 256 ^ bs.length + ofBe bs < (b.toNat + 1) * 256 ^ bs.length := by rw [Nat.add_mul]; omega
      _ ≤ 256 * 256 ^ bs.length := Nat.mul_le_mul_right _ (by omega)
      _ = 256 ^ (b :: bs).length := (Nat.pow_succ').symm

theorem ofBe_be (k n : Nat) : ofBe (be k n) = n % 256 ^ k := by
  induction k with
  | zero => rw [be, ofBe, Nat.pow_zero, Nat.mod_one]
  | succ k ih =>
    rw [be, ofBe, length_be, ih, Nat.mod_pow_succ, UInt8.toNat_ofNat', Nat.add_comm, Nat.mul_comm]

theorem be_add (k c n : Nat) : be k (c * 256 ^ k + n) = be k n := by
  induction k generalizing c with
  | zero => rfl
  | succ k ih =>
    have hsplit : c * 256 ^ (k + 1) + n = c * 256 * 256 ^ k + n := by
      rw [Nat.pow_succ', Nat.mul_assoc]
    rw [hsplit, be, ih, be, Nat.mul_comm, Nat.mul_add_div (Nat.pow_pos (by decide))]
    congr 1
    exact UInt8.toNat_inj.1 (by simp only [UInt8.toNat_ofNat']; omega)

theorem be_ofBe (bs : List UInt8) : be bs.length (ofBe bs) = bs := by
  induction bs with
  | nil => rfl
  | cons b bs ih =>
    rw [List.length_cons, be, ofBe, be_add, ih, Nat.mul_comm, Nat.mul_add_div (Nat.pow_pos (by decide)),
      Nat.div_eq_of_lt (ofBe_lt bs), Nat.add_zero]
    congr 1
    exact UInt8.toNat_inj.1 (by simp)

/-! ### Formats -/

inductive Size where
  | b1
  | b2
  | b4
  | b8
deriving DecidableEq

def Size.bytes : Size → Nat
  | b1 => 1
  | b2 => 2
  | b4 => 4
  | b8 => 8

/-- How far the marker of a width lies behind that of one byte. -/
def Size.code : Size → Nat
  | b1 => 0
  | b2 => 1
  | b4 => 2
  | b8 => 3

inductive IntFormat where
  | posFix
  | negFix
  | unsigned (size : Size)
  | signed (size : Size)
deriving DecidableEq

def IntFormat.Holds : IntFormat → Int → Prop
  | posFix, n => 0 ≤ n ∧ n < 128
  | negFix, n => -32 ≤ n ∧ n < 0
  | unsigned size, n => 0 ≤ n ∧ n < 2 ^ (8 * size.bytes)
  | signed size, n => -2 ^ (8 * size.bytes - 1) ≤ n ∧ n < 2 ^ (8 * size.bytes - 1)

def IntFormat.write : IntFormat → Int → List UInt8
  | posFix, n => [UInt8.ofNat n.toNat]
  | negFix, n => [UInt8.ofNat (n + 256).toNat]
  | unsigned size, n => UInt8.ofNat (0xcc + size.code) :: be size.bytes n.toNat
  | signed size, n => UInt8.ofNat (0xd0 + size.code) :: be size.bytes (BitVec.ofInt (8 * size.bytes) n).toNat

/-- Where a length stands: in the marker itself or in bytes that follow it. -/
inductive LenFormat where
  | fix
  | w8
  | w16
  | w32
deriving DecidableEq

def LenFormat.size : LenFormat → Option Size
  | fix => none
  | w8 => some .b1
  | w16 => some .b2
  | w32 => some .b4

inductive Kind where
  | str
  | bin
  | arr
  | map
deriving DecidableEq

/-- The marker of a format, for length zero where the marker holds it. -/
def Kind.marker : Kind → LenFormat → Nat
  | str, .fix => 0xa0
  | str, .w8 => 0xd9
  | str, .w16 => 0xda
  | str, .w32 => 0xdb
  | bin, .fix => 0
  | bin, .w8 => 0xc4
  | bin, .w16 => 0xc5
  | bin, .w32 => 0xc6
  | arr, .fix => 0x90
  | arr, .w8 => 0
  | arr, .w16 => 0xdc
  | arr, .w32 => 0xdd
  | map, .fix => 0x80
  | map, .w8 => 0
  | map, .w16 => 0xde
  | map, .w32 => 0xdf

/-- The lengths a format takes are those below its limit; a format that a kind lacks takes none. -/
def Kind.limit : Kind → LenFormat → Nat
  | str, .fix => 32
  | bin, .fix => 0
  | arr, .fix | map, .fix => 16
  | str, .w8 | bin, .w8 => 2 ^ 8
  | arr, .w8 | map, .w8 => 0
  | _, .w16 => 2 ^ 16
  | _, .w32 => 2 ^ 32

def Kind.head (kind : Kind) (format : LenFormat) (n : Nat) : List UInt8 :=
  match format.size with
  | none => [UInt8.ofNat (kind.marker format + n)]
  | some size => UInt8.ofNat (kind.marker format) :: be size.bytes n

section Head
variable {kind : Kind} {format : LenFormat} {size : Size} {n : Nat}

theorem Kind.head_sized (hf : format.size = some size) :
    kind.head format n = UInt8.ofNat (kind.marker format) :: be size.bytes n := by
  unfold head; rw [hf]

theorem eq_fix_of_size (hf : format.size = none) : format = .fix := by
  cases format with
  | fix => rfl
  | w8 | w16 | w32 => cases hf

theorem Kind.marker_add_lt (h : n < kind.limit .fix) : kind.marker .fix + n < 256 := by
  cases kind <;> simp only [marker, limit] at * <;> omega

theorem Kind.marker_lt (kind : Kind) (format : LenFormat) : kind.marker format < 256 := by
  cases kind <;> cases format <;> decide

/-- A format whose length follows the marker takes every length of its width, if the kind has it at all. -/
theorem Kind.limit_eq (hf : format.size = some size) (h : 0 < kind.limit format) :
    kind.limit format = 2 ^ (8 * size.bytes) := by
  cases format with
  | fix => cases hf
  | w8 => cases hf; cases kind <;> first | rfl | exact absurd h (by decide)
  | w16 | w32 => cases hf; cases kind <;> rfl

end Head

/-! ### Items -/

inductive Item where
  | nil
  | bool (b : Bool)
  | int (format : IntFormat) (n : Int)
  | str (format : LenFormat) (s : String)
  | bin (format : LenFormat) (data : List UInt8)
  | arr (format : LenFormat) (items : List Item)
  | map (format : LenFormat) (entries : List ((LenFormat × String) × Item))

namespace Item

theorem induction {P : Item → Prop} (nil : P nil) (bool : ∀ b, P (bool b)) (int : ∀ f n, P (int f n))
    (str : ∀ w s, P (str w s)) (bin : ∀ w data, P (bin w data))
    (arr : ∀ w items, (∀ m ∈ items, P m) → P (arr w items))
    (map : ∀ w entries, (∀ e ∈ entries, P e.2) → P (map w entries)) (m : Item) : P m :=
  @Item.rec P (fun items => ∀ m ∈ items, P m) (fun entries => ∀ e ∈ entries, P e.2) (fun e => P e.2) nil bool int str bin arr map
    (fun _ h => nomatch h) (fun _ _ hm hms => List.forall_mem_cons.2 ⟨hm, hms⟩)
    (fun _ h => nomatch h) (fun _ _ he hes => List.forall_mem_cons.2 ⟨he, hes⟩) (fun _ _ h => h) m

def strBytes (format : LenFormat) (s : String) : List UInt8 :=
  Kind.str.head format s.utf8ByteSize ++ s.toUTF8.data.toList

mutual
def bytes : Item → List UInt8
  | nil => [0xc0]
  | bool b => if b then [0xc3] else [0xc2]
  | int f n => f.write n
  | str w s => strBytes w s
  | bin w data => Kind.bin.head w data.length ++ data
  | arr w items => Kind.arr.head w items.length ++ itemsBytes items
  | map w entries => Kind.map.head w entries.length ++ entriesBytes entries

def itemsBytes : List Item → List UInt8
  | [] => []
  | m :: ms => m.bytes ++ itemsBytes ms

def entriesBytes : List ((LenFormat × String) × Item) → List UInt8
  | [] => []
  | ((w, key), m) :: es => strBytes w key ++ (m.bytes ++ entriesBytes es)
end

mutual
/-- An item that stands for a JSON value. -/
def Encodes : Item → Json → Prop
  | nil, v => v = .null
  | bool b, v => v = .bool b
  | int f n, v => f.Holds n ∧ v = .num n
  | str w s, v => s.utf8ByteSize < Kind.str.limit w ∧ v = .str s
  | bin _ _, _ => False
  | arr w items, v => items.length < Kind.arr.limit w ∧ ∃ vs, v = .arr vs ∧ ItemsEncode items vs
  | map w entries, v =>
    entries.length < Kind.map.limit w ∧
      ∃ fields vs, v = .obj fields ∧ Json.SortedFields fields ∧ vs.Perm fields ∧ EntriesEncode entries vs

def ItemsEncode : List Item → List Json → Prop
  | [], vs => vs = []
  | m :: ms, vs => ∃ v vs', vs = v :: vs' ∧ m.Encodes v ∧ ItemsEncode ms vs'

def EntriesEncode : List ((LenFormat × String) × Item) → List (String × Json) → Prop
  | [], vs => vs = []
  | ((w, key), m) :: es, vs =>
    ∃ v vs', vs = (key, v) :: vs' ∧ key.utf8ByteSize < Kind.str.limit w ∧ m.Encodes v ∧ EntriesEncode es vs'
end

mutual
/-- Every number and every length stands in a format that holds it. -/
def Legal : Item → Prop
  | nil | bool _ => True
  | int f n => f.Holds n
  | str w s => s.utf8ByteSize < Kind.str.limit w
  | bin w data => data.length < Kind.bin.limit w
  | arr w items => items.length < Kind.arr.limit w ∧ ItemsLegal items
  | map w entries => entries.length < Kind.map.limit w ∧ EntriesLegal entries

def ItemsLegal : List Item → Prop
  | [] => True
  | m :: ms => m.Legal ∧ ItemsLegal ms

def EntriesLegal : List ((LenFormat × String) × Item) → Prop
  | [] => True
  | ((w, key), m) :: es => key.utf8ByteSize < Kind.str.limit w ∧ m.Legal ∧ EntriesLegal es
end

mutual
def value : Item → Json
  | nil => .null
  | bool b => .bool b
  | int _ n => .num n
  | str _ s => .str s
  | bin _ data => .arr (data.map fun b => .num b.toNat)
  | arr _ items => .arr (values items)
  | map _ entries => .obj (Json.ofFields (fieldValues entries))

def values : List Item → List Json
  | [] => []
  | m :: ms => m.value :: values ms

def fieldValues : List ((LenFormat × String) × Item) → List (String × Json)
  | [] => []
  | ((_, key), m) :: es => (key, m.value) :: fieldValues es
end

mutual
/-- No integer takes eight bytes. -/
def Narrow : Item → Prop
  | nil | bool _ | str _ _ | bin _ _ => True
  | int f _ => f ≠ .unsigned .b8 ∧ f ≠ .signed .b8
  | arr _ items => ItemsNarrow items
  | map _ entries => EntriesNarrow entries

def ItemsNarrow : List Item → Prop
  | [] => True
  | m :: ms => m.Narrow ∧ ItemsNarrow ms

def EntriesNarrow : List ((LenFormat × String) × Item) → Prop
  | [] => True
  | (_, m) :: es => m.Narrow ∧ EntriesNarrow es
end

theorem legal_of_itemsEncode {ms : List Item} (h : ∀ m ∈ ms, ∀ v, m.Encodes v → m.Legal ∧ m.value = v)
    {vs : List Json} (hvs : ItemsEncode ms vs) : ItemsLegal ms ∧ values ms = vs := by
  induction ms generalizing vs with
  | nil => exact ⟨trivial, hvs.symm⟩
  | cons m ms ih =>
    obtain ⟨v, vs, rfl, hv, hvs⟩ := hvs
    obtain ⟨hl, rfl⟩ := h m List.mem_cons_self v hv
    obtain ⟨hls, rfl⟩ := ih (fun m hm => h m (List.mem_cons_of_mem _ hm)) hvs
    exact ⟨⟨hl, hls⟩, rfl⟩

theorem legal_of_entriesEncode {es : List ((LenFormat × String) × Item)}
    (h : ∀ e ∈ es, ∀ v, e.2.Encodes v → e.2.Legal ∧ e.2.value = v) {vs : List (String × Json)}
    (hvs : EntriesEncode es vs) : EntriesLegal es ∧ fieldValues es = vs := by
  induction es generalizing vs with
  | nil => exact ⟨trivial, hvs.symm⟩
  | cons e es ih =>
    obtain ⟨v, vs, rfl, hk, hv, hvs⟩ := hvs
    obtain ⟨hl, rfl⟩ := h e List.mem_cons_self v hv
    obtain ⟨hls, rfl⟩ := ih (fun e he => h e (List.mem_cons_of_mem _ he)) hvs
    exact ⟨⟨hk, hl, hls⟩, rfl⟩

theorem legal_of_encodes (m : Item) : ∀ v, m.Encodes v → m.Legal ∧ m.value = v := by
  induction m using Item.induction with
  | nil => exact fun v h => ⟨trivial, h.symm⟩
  | bool b => exact fun v h => ⟨trivial, h.symm⟩
  | int f n => exact fun v h => ⟨h.1, h.2.symm⟩
  | str w s => exact fun v h => ⟨h.1, h.2.symm⟩
  | bin w data => exact fun v h => h.elim
  | arr w items ih =>
    rintro _ ⟨hw, vs, rfl, hvs⟩
    obtain ⟨hl, rfl⟩ := legal_of_itemsEncode ih hvs
    exact ⟨⟨hw, hl⟩, rfl⟩
  | map w entries ih =>
    rintro _ ⟨hw, fields, vs, rfl, hs, hp, hvs⟩
    obtain ⟨hl, rfl⟩ := legal_of_entriesEncode ih hvs
    exact ⟨⟨hw, hl⟩, congrArg Json.obj (Json.ofFields_eq hs hp)⟩

mutual
/-- How deep items nest in an item, itself included. -/
def depth : Item → Nat
  | nil | bool _ | int _ _ | str _ _ | bin _ _ => 1
  | arr _ items => itemsDepth items + 1
  | map _ entries => entriesDepth entries + 1

def itemsDepth : List Item → Nat
  | [] => 0
  | m :: ms => max m.depth (itemsDepth ms)

def entriesDepth : List ((LenFormat × String) × Item) → Nat
  | [] => 0
  | (_, m) :: es => max m.depth (entriesDepth es)
end

mutual
/-- The lengths of the sequences that an item is read into are all admitted. -/
def Granted (allocates : Nat → Bool) : Item → Prop
  | nil | bool _ | int _ _ | str _ _ => True
  | bin _ data => allocates data.length
  | arr _ items => allocates items.length ∧ ItemsGranted allocates items
  | map _ entries => EntriesGranted allocates entries

def ItemsGranted (allocates : Nat → Bool) : List Item → Prop
  | [] => True
  | m :: ms => m.Granted allocates ∧ ItemsGranted allocates ms

def EntriesGranted (allocates : Nat → Bool) : List ((LenFormat × String) × Item) → Prop
  | [] => True
  | (_, m) :: es => m.Granted allocates ∧ EntriesGranted allocates es
end

mutual
/-- No binary data, and no key twice in a map. -/
def Plain : Item → Prop
  | nil | bool _ | int _ _ | str _ _ => True
  | bin _ _ => False
  | arr _ items => ItemsPlain items
  | map _ entries => (entries.map (·.1.2)).Nodup ∧ EntriesPlain entries

def ItemsPlain : List Item → Prop
  | [] => True
  | m :: ms => m.Plain ∧ ItemsPlain ms

def EntriesPlain : List ((LenFormat × String) × Item) → Prop
  | [] => True
  | (_, m) :: es => m.Plain ∧ EntriesPlain es
end

theorem itemsNarrow_iff {ms : List Item} : ItemsNarrow ms ↔ ∀ m ∈ ms, m.Narrow := by
  induction ms with
  | nil => simp [ItemsNarrow]
  | cons m ms ih => rw [ItemsNarrow, ih, List.forall_mem_cons]

theorem entriesNarrow_iff {es : List ((LenFormat × String) × Item)} : EntriesNarrow es ↔ ∀ e ∈ es, e.2.Narrow := by
  induction es with
  | nil => simp [EntriesNarrow]
  | cons e es ih => rw [EntriesNarrow, ih, List.forall_mem_cons]

theorem itemsDepth_le_iff {ms : List Item} {n : Nat} : itemsDepth ms ≤ n ↔ ∀ m ∈ ms, m.depth ≤ n := by
  induction ms with
  | nil => simp [itemsDepth]
  | cons m ms ih => rw [itemsDepth, max_le_iff, ih, List.forall_mem_cons]

theorem entriesDepth_le_iff {es : List ((LenFormat × String) × Item)} {n : Nat} :
    entriesDepth es ≤ n ↔ ∀ e ∈ es, e.2.depth ≤ n := by
  induction es with
  | nil => simp [entriesDepth]
  | cons e es ih => rw [entriesDepth, max_le_iff, ih, List.forall_mem_cons]

theorem itemsGranted_iff {allocates : Nat → Bool} {ms : List Item} :
    ItemsGranted allocates ms ↔ ∀ m ∈ ms, m.Granted allocates := by
  induction ms with
  | nil => simp [ItemsGranted]
  | cons m ms ih => rw [ItemsGranted, ih, List.forall_mem_cons]

theorem entriesGranted_iff {allocates : Nat → Bool} {es : List ((LenFormat × String) × Item)} :
    EntriesGranted allocates es ↔ ∀ e ∈ es, e.2.Granted allocates := by
  induction es with
  | nil => simp [EntriesGranted]
  | cons e es ih => rw [EntriesGranted, ih, List.forall_mem_cons]

theorem itemsBytes_append (ms ms' : List Item) : itemsBytes (ms ++ ms') = itemsBytes ms ++ itemsBytes ms' := by
  induction ms with
  | nil => rfl
  | cons m ms ih => simp [itemsBytes, ih]

theorem entriesBytes_append (es es' : List ((LenFormat × String) × Item)) :
    entriesBytes (es ++ es') = entriesBytes es ++ entriesBytes es' := by
  induction es with
  | nil => rfl
  | cons e es ih => simp [entriesBytes, ih]

theorem itemsLegal_iff {ms : List Item} : ItemsLegal ms ↔ ∀ m ∈ ms, m.Legal := by
  induction ms with
  | nil => simp [ItemsLegal]
  | cons m ms ih => rw [ItemsLegal, ih, List.forall_mem_cons]

theorem entriesLegal_iff {es : List ((LenFormat × String) × Item)} :
    EntriesLegal es ↔ ∀ e ∈ es, (Item.str e.1.1 e.1.2).Legal ∧ e.2.Legal := by
  induction es with
  | nil => simp [EntriesLegal]
  | cons e es ih => rw [EntriesLegal, ih, List.forall_mem_cons]; exact and_assoc.symm

theorem depth_pos (m : Item) : 0 < m.depth := by
  cases m <;> simp [depth]

theorem keys_fieldValues (es : List ((LenFormat × String) × Item)) :
    (fieldValues es).map (·.1) = es.map (·.1.2) := by
  induction es with
  | nil => rfl
  | cons e es ih => exact congrArg (e.1.2 :: ·) ih

theorem encodes_value_iff (m : Item) (hl : m.Legal) : m.Encodes m.value ↔ m.Plain := by
  have items_of : ∀ ms : List Item, (∀ m ∈ ms, m.Legal → (m.Encodes m.value ↔ m.Plain)) → ItemsLegal ms →
      (ItemsEncode ms (values ms) ↔ ItemsPlain ms) := by
    intro ms ih hl
    induction ms with
    | nil => exact ⟨fun _ => trivial, fun _ => rfl⟩
    | cons m ms ihs =>
      have hm := ih m List.mem_cons_self hl.1
      have hms := ihs (fun m hm => ih m (List.mem_cons_of_mem _ hm)) hl.2
      refine ⟨?_, fun hp => ⟨_, _, rfl, hm.2 hp.1, hms.2 hp.2⟩⟩
      rintro ⟨v, vs, heq, hv, hvs⟩
      cases heq
      exact ⟨hm.1 hv, hms.1 hvs⟩
  have entries_of : ∀ es : List ((LenFormat × String) × Item), (∀ e ∈ es, e.2.Legal → (e.2.Encodes e.2.value ↔ e.2.Plain)) →
      EntriesLegal es → (EntriesEncode es (fieldValues es) ↔ EntriesPlain es) := by
    intro es ih hl
    induction es with
    | nil => exact ⟨fun _ => trivial, fun _ => rfl⟩
    | cons e es ihs =>
      have he := ih e List.mem_cons_self hl.2.1
      have hes := ihs (fun e he => ih e (List.mem_cons_of_mem _ he)) hl.2.2
      refine ⟨?_, fun hp => ⟨_, _, rfl, hl.1, he.2 hp.1, hes.2 hp.2⟩⟩
      rintro ⟨v, vs, heq, -, hv, hvs⟩
      cases heq
      exact ⟨he.1 hv, hes.1 hvs⟩
  induction m using Item.induction with
  | nil => exact ⟨fun _ => trivial, fun _ => rfl⟩
  | bool b => exact ⟨fun _ => trivial, fun _ => rfl⟩
  | int f n => exact ⟨fun _ => trivial, fun _ => ⟨hl, rfl⟩⟩
  | str w s => exact ⟨fun _ => trivial, fun _ => ⟨hl, rfl⟩⟩
  | bin w data => exact Iff.rfl
  | arr w items ih =>
    have h := items_of items ih hl.2
    refine ⟨?_, fun hp => ⟨hl.1, _, rfl, h.2 hp⟩⟩
    rintro ⟨-, vs, heq, hvs⟩
    cases heq
    exact h.1 hvs
  | map w entries ih =>
    have h := entries_of entries ih hl.2
    constructor
    · rintro ⟨-, fields, vs, -, hs, hp, hvs⟩
      have hval : fieldValues entries = vs := (legal_of_entriesEncode (fun e _ => legal_of_encodes e.2) hvs).2
      subst hval
      have hkeys : ((fieldValues entries).map (·.1)).Nodup :=
        ((hp.map (·.1)).nodup_iff).2 (List.pairwise_map.2 (hs.imp ne_of_lt))
      exact ⟨keys_fieldValues entries ▸ hkeys, h.1 hvs⟩
    · rintro ⟨hkeys, hp⟩
      obtain ⟨hs, hperm⟩ := Json.foldl_insertField (fieldValues entries) (m := []) List.Pairwise.nil
        (by simpa [keys_fieldValues] using hkeys)
      rw [List.append_nil] at hperm
      exact ⟨hl.1, _, _, rfl, hs, hperm.symm, h.2 hp⟩

end Item

end Msgpack
