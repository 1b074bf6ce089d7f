import Rustchat.Lib.Msgpack

/-!
# Binary frames of the websocket

The MessagePack decoder of the binary frames reads the input through an index that every function
moves. A `Reader` keeps the index also where it answers nothing. The process ends where the index would
overflow, where items nest deeper than the stack takes calls, and where `Vec::with_capacity` asks for
memory that is not there; the last two depend on the machine.
-/

namespace Rustchat.MsgpackDecode
open Msgpack

inductive Halt where
  | overflow
  | stack
  | memory
deriving DecidableEq

structure Machine where
  /-- How many calls of `decode_msgpack_at` the stack takes one inside the other. -/
  stack : Nat
  /-- Whether a vector of so many values gets its memory. -/
  allocates : Nat → Bool

/-- From the index a call starts at to its answer and the index it leaves. -/
def Reader (α : Type) : Type := Nat → Except Halt (Option α × Nat)

instance : Monad Reader where
  pure a := fun idx => .ok (some a, idx)
  bind x f := fun idx =>
    match x idx with
    | .ok (some a, idx) => f a idx
    | .ok (none, idx) => .ok (none, idx)
    | .error halt => .error halt

namespace Reader
variable {α β : Type}

/-- The value of an option, as `?` takes it. -/
def ofOption : Option α → Reader α
  | some a => pure a
  | none => fun idx => .ok (none, idx)

@[simp] theorem pure_apply (a : α) (idx : Nat) : (pure a : Reader α) idx = .ok (some a, idx) := rfl

theorem bind_apply (x : Reader α) (f : α → Reader β) (idx : Nat) :
    (x >>= f) idx =
      match x idx with
      | .ok (some a, idx) => f a idx
      | .ok (none, idx) => .ok (none, idx)
      | .error halt => .error halt := rfl

theorem bind_some {x : Reader α} {f : α → Reader β} {idx j : Nat} {a : α} (h : x idx = .ok (some a, j)) :
    (x >>= f) idx = f a j := by
  rw [bind_apply, h]

theorem bind_none {x : Reader α} {f : α → Reader β} {idx j : Nat} (h : x idx = .ok (none, j)) :
    (x >>= f) idx = .ok (none, j) := by
  rw [bind_apply, h]

theorem bind_eq_some {x : Reader α} {f : α → Reader β} {idx k : Nat} {b : β} (h : (x >>= f) idx = .ok (some b, k)) :
    ∃ a j, x idx = .ok (some a, j) ∧ f a j = .ok (some b, k) := by
  rw [bind_apply] at h
  split at h
  · next a j hx => exact ⟨a, j, hx, h⟩
  · cases h
  · cases h

theorem bind_error {x : Reader α} {f : α → Reader β} {idx : Nat} {halt : Halt}
    (h : x idx = .error halt) : (x >>= f) idx = .error halt := by
  rw [bind_apply, h]

theorem bind_eq_error {x : Reader α} {f : α → Reader β} {idx : Nat} {halt : Halt}
    (h : (x >>= f) idx = .error halt) :
    x idx = .error halt ∨ ∃ a j, x idx = .ok (some a, j) ∧ f a j = .error halt := by
  rw [bind_apply] at h
  split at h
  · next a j hx => exact .inr ⟨a, j, hx, h⟩
  · cases h
  · next halt' hx => cases h; exact .inl hx

theorem bind_pure_bind {γ : Type} (x : Reader α) (g : α → β) (f : β → Reader γ) :
    ((x >>= fun a => pure (g a)) >>= f) = x >>= fun a => f (g a) := by
  funext idx
  rw [bind_apply, bind_apply, bind_apply]
  cases h : x idx with
  | error halt => rfl
  | ok r => obtain ⟨_ | a, j⟩ := r <;> rfl

end Reader

section Rules
variable (bytes : List UInt8) {α β : Type} {x : Reader α} {f : α → Reader β}

/-- The reader leaves an index between its own and the end of the input. -/
def Tame (x : Reader α) : Prop :=
  ∀ idx r j, idx ≤ bytes.length → x idx = .ok (r, j) → idx ≤ j ∧ j ≤ bytes.length

/-- The reader takes exactly `e` and answers `a` wherever `e` comes next. -/
def Yields (x : Reader α) (e : List UInt8) (a : α) : Prop :=
  ∀ idx rest, idx ≤ bytes.length → bytes.drop idx = e ++ rest → x idx = .ok (some a, idx + e.length)

/-- The reader has no answer wherever `e` comes next. -/
def Fails (x : Reader α) (e : List UInt8) : Prop :=
  ∀ idx rest, idx ≤ bytes.length → bytes.drop idx = e ++ rest → ∀ a j, x idx ≠ .ok (some a, j)

def Takes (x : Reader α) (P : α → List UInt8 → Prop) : Prop :=
  ∀ idx a j, x idx = .ok (some a, j) → ∃ e, bytes.drop idx = e ++ bytes.drop j ∧ j = idx + e.length ∧ P a e

variable {bytes}

theorem drop_of_append {idx : Nat} {e rest : List UInt8} (h : bytes.drop idx = e ++ rest) :
    bytes.drop (idx + e.length) = rest := by
  rw [← List.drop_drop, h, List.drop_left]

theorem add_length_le {idx : Nat} {e rest : List UInt8} (hidx : idx ≤ bytes.length) (h : bytes.drop idx = e ++ rest) :
    idx + e.length ≤ bytes.length := by
  have hlen := congrArg List.length h
  rw [List.length_drop, List.length_append] at hlen
  omega

namespace Tame

theorem pure (a : α) : Tame bytes (pure a) := by
  rintro idx _ _ h ⟨⟩
  exact ⟨Nat.le_refl _, h⟩

theorem ofOption (o : Option α) : Tame bytes (Reader.ofOption o) := by
  cases o with
  | none => rintro idx _ _ h ⟨⟩; exact ⟨Nat.le_refl _, h⟩
  | some a => exact .pure a

theorem bind (hx : Tame bytes x) (hf : ∀ a, Tame bytes (f a)) : Tame bytes (x >>= f) := by
  intro idx r k hidx h
  rw [Reader.bind_apply] at h
  split at h
  · next a j ha =>
    have hj := hx idx _ _ hidx ha
    have hk := hf a j _ _ hj.2 h
    exact ⟨Nat.le_trans hj.1 hk.1, hk.2⟩
  · next j ha => cases h; exact hx idx _ _ hidx ha
  · cases h

end Tame

namespace Yields
variable {e e' : List UInt8} {a : α} {b : β}

theorem pure (a : α) : Yields bytes (pure a) [] a := fun _ _ _ _ => rfl

theorem bind (hx : Yields bytes x e a) (hf : Yields bytes (f a) e' b) : Yields bytes (x >>= f) (e ++ e') b := by
  intro idx rest hidx h
  rw [List.append_assoc] at h
  rw [Reader.bind_some (hx idx _ hidx h), hf _ rest (add_length_le hidx h) (drop_of_append h), List.length_append,
    Nat.add_assoc]

theorem bind_nil (hx : Yields bytes x [] a) (hf : Yields bytes (f a) e b) : Yields bytes (x >>= f) e b :=
  hx.bind hf

theorem bind_pure {g : α → β} (hx : Yields bytes x e a) : Yields bytes (x >>= fun a => Pure.pure (g a)) e (g a) := by
  have h := hx.bind (f := fun a => (Pure.pure (g a) : Reader β)) (pure (g a))
  rwa [List.append_nil] at h

end Yields

namespace Fails
variable {e e' : List UInt8} {a : α}

theorem none : Fails bytes (Reader.ofOption (Option.none : Option α)) e := fun _ _ _ _ _ _ h => nomatch h

theorem first (hx : Fails bytes x e) : Fails bytes (x >>= f) (e ++ e') := by
  intro idx rest hidx h b j hb
  rw [List.append_assoc] at h
  obtain ⟨a, k, ha, -⟩ := Reader.bind_eq_some hb
  exact hx idx _ hidx h a k ha

theorem bind (hx : Yields bytes x e a) (hf : Fails bytes (f a) e') : Fails bytes (x >>= f) (e ++ e') := by
  intro idx rest hidx h
  rw [List.append_assoc] at h
  rw [Reader.bind_some (hx idx _ hidx h)]
  exact hf _ rest (add_length_le hidx h) (drop_of_append h)

end Fails

namespace Takes
variable {P : α → List UInt8 → Prop} {Q : β → List UInt8 → Prop}

theorem pure {a : α} (h : P a []) : Takes bytes (pure a) P := by
  rintro idx _ _ ⟨⟩
  exact ⟨[], rfl, rfl, h⟩

theorem none : Takes bytes (Reader.ofOption Option.none) P := fun _ _ _ h => nomatch h

theorem ofOption {o : Option α} (h : ∀ a, o = some a → P a []) : Takes bytes (Reader.ofOption o) P := by
  cases o with
  | none => exact none
  | some a => exact pure (h a rfl)

theorem bind (hx : Takes bytes x P) (hf : ∀ a e, P a e → Takes bytes (f a) fun b e' => Q b (e ++ e')) :
    Takes bytes (x >>= f) Q := by
  intro idx b k h
  obtain ⟨a, j, ha, hb⟩ := Reader.bind_eq_some h
  obtain ⟨e, he, rfl, hp⟩ := hx idx a j ha
  obtain ⟨e', he', rfl, hq⟩ := hf a e hp _ b k hb
  exact ⟨e ++ e', by rw [he, he', List.append_assoc], by rw [List.length_append, Nat.add_assoc], hq⟩

theorem mono (hx : Takes bytes x P) {P' : α → List UInt8 → Prop} (h : ∀ a e, P a e → P' a e) :
    Takes bytes x P' := by
  intro idx a j ha
  obtain ⟨e, he, hj, hp⟩ := hx idx a j ha
  exact ⟨e, he, hj, h a e hp⟩

end Takes

end Rules

section Decoder
variable (machine : Machine) (bytes : List UInt8)

/-- An index is a number of 64 bits. -/
def usizeLimit : Nat := 2 ^ 64

def readU8 : Reader UInt8 := fun idx =>
  match bytes[idx]? with
  | none => .ok (none, idx)
  | some value => if idx + 1 < usizeLimit then .ok (some value, idx + 1) else .error .overflow

def readExact (len : Nat) : Reader (List UInt8) := fun idx =>
  let stop := idx + len
  if usizeLimit ≤ stop then .ok (none, idx)
  else if stop ≤ bytes.length then .ok (some ((bytes.drop idx).take len), stop)
  else .ok (none, idx)

def readI8 : Reader Int := do
  let v ← readU8 bytes
  pure (BitVec.ofNat 8 v.toNat).toInt

def readU16 : Reader Nat := do
  let arr ← readExact bytes 2
  pure (ofBe arr)

def readI16 : Reader Int := do
  let arr ← readExact bytes 2
  pure (BitVec.ofNat 16 (ofBe arr)).toInt

def readU32 : Reader Nat := do
  let arr ← readExact bytes 4
  pure (ofBe arr)

def readI32 : Reader Int := do
  let arr ← readExact bytes 4
  pure (BitVec.ofNat 32 (ofBe arr)).toInt

def decodeStr (len : Nat) : Reader Json := do
  let slice ← readExact bytes len
  let text ← Reader.ofOption (String.fromUTF8? ⟨slice.toArray⟩)
  pure (.str text)

/-- `Vec::with_capacity` of `len` values, also where `collect` asks for it. -/
def withCapacity (len : Nat) : Reader Unit := fun idx =>
  if machine.allocates len then .ok (some (), idx) else .error .memory

def decodeBinAsJsonArray (len : Nat) : Reader Json := do
  let slice ← readExact bytes len
  withCapacity machine len
  pure (.arr (slice.map fun b => .num b.toNat))

/-- The loop of `decodeArray`; `item` is the decoder of one item. -/
def decodeItems (item : Reader Json) : Nat → Reader (List Json)
  | 0 => pure []
  | len + 1 => do
    let v ← item
    let items ← decodeItems item len
    pure (v :: items)

def decodeArray (item : Reader Json) (len : Nat) : Reader Json := do
  withCapacity machine len
  let items ← decodeItems item len
  pure (.arr items)

/-- The loop of `decodeMap` from the map filled so far. -/
def decodeFields (item : Reader Json) : Nat → List (String × Json) → Reader (List (String × Json))
  | 0, map => pure map
  | len + 1, map => do
    let v ← item
    let key ← Reader.ofOption v.asStr
    let value ← item
    decodeFields item len (Json.insertField key value map)

/-- A map is a tree, which takes its memory entry by entry. -/
def decodeMap (item : Reader Json) (len : Nat) : Reader Json := do
  let map ← decodeFields item len []
  pure (.obj map)

def decodeMarked (item : Reader Json) (marker : Nat) : Reader Json :=
  if marker ≤ 0x7f then pure (.num marker)
  else if 0xe0 ≤ marker then pure (.num (BitVec.ofNat 8 marker).toInt)
  else if marker = 0xc0 then pure .null
  else if marker = 0xc2 then pure (.bool false)
  else if marker = 0xc3 then pure (.bool true)
  else if marker = 0xcc then do
    let v ← readU8 bytes
    pure (.num v.toNat)
  else if marker = 0xcd then do
    let v ← readU16 bytes
    pure (.num v)
  else if marker = 0xce then do
    let v ← readU32 bytes
    pure (.num v)
  else if marker = 0xd0 then do
    let v ← readI8 bytes
    pure (.num v)
  else if marker = 0xd1 then do
    let v ← readI16 bytes
    pure (.num v)
  else if marker = 0xd2 then do
    let v ← readI32 bytes
    pure (.num v)
  else if 0xa0 ≤ marker ∧ marker ≤ 0xbf then decodeStr bytes (marker - 0xa0)
  else if marker = 0xd9 then do
    let len ← readU8 bytes
    decodeStr bytes len.toNat
  else if marker = 0xda then do
    let len ← readU16 bytes
    decodeStr bytes len
  else if marker = 0xdb then do
    let len ← readU32 bytes
    decodeStr bytes len
  else if marker = 0xc4 then do
    let len ← readU8 bytes
    decodeBinAsJsonArray machine bytes len.toNat
  else if marker = 0xc5 then do
    let len ← readU16 bytes
    decodeBinAsJsonArray machine bytes len
  else if marker = 0xc6 then do
    let len ← readU32 bytes
    decodeBinAsJsonArray machine bytes len
  else if 0x90 ≤ marker ∧ marker ≤ 0x9f then decodeArray machine item (marker - 0x90)
  else if marker = 0xdc then do
    let len ← readU16 bytes
    decodeArray machine item len
  else if marker = 0xdd then do
    let len ← readU32 bytes
    decodeArray machine item len
  else if 0x80 ≤ marker ∧ marker ≤ 0x8f then decodeMap item (marker - 0x80)
  else if marker = 0xde then do
    let len ← readU16 bytes
    decodeMap item len
  else if marker = 0xdf then do
    let len ← readU32 bytes
    decodeMap item len
  else Reader.ofOption none

def decodeMsgpackAt : Nat → Reader Json
  | 0 => fun _ => .error .stack
  | stack + 1 => do
    let marker ← readU8 bytes
    decodeMarked machine bytes (decodeMsgpackAt stack) marker.toNat

def decode : Reader Json := decodeMsgpackAt machine bytes machine.stack

end Decoder

/-! ### The readers of numbers -/

/-- A slice has at most `isize::MAX` bytes. -/
def isizeMax : Nat := 2 ^ 63 - 1

section Numbers
variable {bytes : List UInt8} (hn : bytes.length ≤ isizeMax)
include hn

theorem readU8_eq (idx : Nat) :
    readU8 bytes idx =
      match bytes[idx]? with
      | none => .ok (none, idx)
      | some b => .ok (some b, idx + 1) := by
  rw [readU8]
  cases h : bytes[idx]? with
  | none => rfl
  | some b =>
    have hlt := (List.getElem?_eq_some_iff.1 h).1
    exact if_pos (by simp only [usizeLimit, isizeMax] at *; omega)

theorem tame_readU8 : Tame bytes (readU8 bytes) := by
  intro idx r j hidx h
  rw [readU8_eq hn] at h
  split at h
  · cases h; exact ⟨Nat.le_refl _, hidx⟩
  · next b hb => cases h; exact ⟨Nat.le_succ _, (List.getElem?_eq_some_iff.1 hb).1⟩

theorem yields_readU8 (b : UInt8) : Yields bytes (readU8 bytes) [b] b := by
  intro idx rest _ h
  have hb : bytes[idx]? = some b := by rw [← List.head?_drop, h]; rfl
  rw [readU8_eq hn, hb]; rfl

theorem takes_readU8 : Takes bytes (readU8 bytes) fun b e => e = [b] := by
  intro idx b j h
  rw [readU8_eq hn] at h
  split at h
  · cases h
  · next c hc =>
    cases h
    obtain ⟨hlt, rfl⟩ := List.getElem?_eq_some_iff.1 hc
    exact ⟨[bytes[idx]], List.drop_eq_getElem_cons hlt, rfl, rfl⟩

omit hn in
theorem tame_readExact (len : Nat) : Tame bytes (readExact bytes len) := by
  intro idx r j hidx h
  simp only [readExact] at h
  split_ifs at h with h1 h2
  · cases h; exact ⟨Nat.le_refl _, hidx⟩
  · cases h; exact ⟨Nat.le_add_right .., h2⟩
  · cases h; exact ⟨Nat.le_refl _, hidx⟩

theorem yields_readExact {len : Nat} {e : List UInt8} (he : e.length = len) :
    Yields bytes (readExact bytes len) e e := by
  subst he
  intro idx rest hidx h
  have hle := add_length_le hidx h
  have hlt : ¬ usizeLimit ≤ idx + e.length := by simp only [usizeLimit, isizeMax] at *; omega
  simp only [readExact, if_neg hlt, if_pos hle, h, List.take_left]

omit hn in
theorem takes_readExact (len : Nat) :
    Takes bytes (readExact bytes len) fun e' e => e' = e ∧ e.length = len := by
  intro idx e' j h
  simp only [readExact] at h
  split_ifs at h with h1 h2
  · cases h
  · injection h with h
    injection h with ha hj
    subst hj
    have hlen : ((bytes.drop idx).take len).length = len := by
      rw [List.length_take, List.length_drop]; omega
    refine ⟨(bytes.drop idx).take len, ?_, by rw [hlen], (Option.some.inj ha).symm, hlen⟩
    rw [← List.drop_drop, List.take_append_drop]
  · cases h

end Numbers

def readUnsigned (bytes : List UInt8) : Size → Reader Nat
  | .b1 => do
    let v ← readU8 bytes
    pure v.toNat
  | .b2 => readU16 bytes
  | .b4 => readU32 bytes
  | .b8 => Reader.ofOption none

def readSigned (bytes : List UInt8) : Size → Reader Int
  | .b1 => readI8 bytes
  | .b2 => readI16 bytes
  | .b4 => readI32 bytes
  | .b8 => Reader.ofOption none

section Sizes
variable {bytes : List UInt8} (hn : bytes.length ≤ isizeMax) {size : Size}
include hn

theorem tame_readUnsigned : Tame bytes (readUnsigned bytes size) := by
  cases size with
  | b1 => exact (tame_readU8 hn).bind fun _ => .pure _
  | b2 => exact (tame_readExact 2).bind fun _ => .pure _
  | b4 => exact (tame_readExact 4).bind fun _ => .pure _
  | b8 => exact .ofOption none

theorem yields_readUnsigned (hs : size ≠ .b8) {n : Nat} (h : n < 2 ^ (8 * size.bytes)) :
    Yields bytes (readUnsigned bytes size) (be size.bytes n) n := by
  have hexact : ∀ k, n < 2 ^ (8 * k) →
    Yields bytes (readExact bytes k >>= fun arr => pure (ofBe arr)) (be k n) n := by
    intro k hk
    have hy : Yields bytes (readExact bytes k >>= fun arr => pure (ofBe arr)) _ _ :=
      (yields_readExact hn (length_be k n)).bind_pure
    rwa [ofBe_be, Nat.mod_eq_of_lt (by rwa [Nat.pow_mul] at hk)] at hy
  cases size with
  | b1 =>
    have hb : (UInt8.ofNat (n / 256 ^ 0)).toNat = n := by
      rw [Nat.pow_zero, Nat.div_one, UInt8.toNat_ofNat']
      exact Nat.mod_eq_of_lt h
    have hy : Yields bytes (readUnsigned bytes .b1) _ _ :=
      (yields_readU8 hn (UInt8.ofNat (n / 256 ^ 0))).bind_pure
    rwa [hb] at hy
  | b2 => exact hexact 2 h
  | b4 => exact hexact 4 h
  | b8 => exact absurd rfl hs

theorem takes_readUnsigned :
    Takes bytes (readUnsigned bytes size) fun n e => e = be size.bytes n ∧ n < 2 ^ (8 * size.bytes) := by
  have hexact : ∀ k, Takes bytes (readExact bytes k >>= fun arr => pure (ofBe arr))
      fun n e => e = be k n ∧ n < 2 ^ (8 * k) := by
    intro k
    refine (takes_readExact k).bind ?_
    rintro e _ ⟨rfl, rfl⟩
    refine .pure ⟨?_, ?_⟩
    · rw [List.append_nil, be_ofBe]
    · rw [Nat.pow_mul]; exact ofBe_lt e
  cases size with
  | b1 =>
    refine (takes_readU8 hn).bind ?_
    rintro b _ rfl
    refine .pure ⟨?_, b.toNat_lt⟩
    have hb : ofBe [b] = b.toNat := by simp [ofBe]
    exact hb ▸ (be_ofBe [b]).symm
  | b2 => exact hexact 2
  | b4 => exact hexact 4
  | b8 => exact .none

omit hn in
theorem readSigned_eq :
    readSigned bytes size =
      readUnsigned bytes size >>= fun n => pure (BitVec.ofNat (8 * size.bytes) n).toInt := by
  cases size with
  | b1 => exact (Reader.bind_pure_bind (readU8 bytes) UInt8.toNat fun n => pure (BitVec.ofNat 8 n).toInt).symm
  | b2 => exact (Reader.bind_pure_bind (readExact bytes 2) ofBe fun n => pure (BitVec.ofNat 16 n).toInt).symm
  | b4 => exact (Reader.bind_pure_bind (readExact bytes 4) ofBe fun n => pure (BitVec.ofNat 32 n).toInt).symm
  | b8 => rfl

theorem tame_readSigned : Tame bytes (readSigned bytes size) :=
  readSigned_eq ▸ (tame_readUnsigned hn).bind fun _ => .pure _

theorem yields_readSigned (hs : size ≠ .b8) {n : Int} (h : (IntFormat.signed size).Holds n) :
    Yields bytes (readSigned bytes size) (be size.bytes (BitVec.ofInt (8 * size.bytes) n).toNat) n := by
  have hy : Yields bytes (readUnsigned bytes size >>= fun n => pure (BitVec.ofNat (8 * size.bytes) n).toInt) _ _ :=
    (yields_readUnsigned hn hs (BitVec.ofInt (8 * size.bytes) n).isLt).bind_pure
  have hpos : 0 < 8 * size.bytes := by cases size <;> decide
  rw [BitVec.ofNat_toNat, BitVec.setWidth_eq, BitVec.toInt_ofInt_eq_self hpos h.1 h.2] at hy
  rwa [readSigned_eq]

theorem takes_readSigned :
    Takes bytes (readSigned bytes size) fun n e =>
      e = be size.bytes (BitVec.ofInt (8 * size.bytes) n).toNat ∧ (IntFormat.signed size).Holds n := by
  rw [readSigned_eq]
  refine (takes_readUnsigned hn).bind ?_
  rintro n _ ⟨rfl, hlt⟩
  refine .pure ⟨?_, BitVec.le_toInt _, BitVec.toInt_lt⟩
  rw [List.append_nil, BitVec.ofInt_toInt, BitVec.toNat_ofNat, Nat.mod_eq_of_lt hlt]

end Sizes

/-! ### Markers -/

def decodeBody (machine : Machine) (bytes : List UInt8) (item : Reader Json) : Kind → Nat → Reader Json
  | .str => decodeStr bytes
  | .bin => decodeBinAsJsonArray machine bytes
  | .arr => decodeArray machine item
  | .map => decodeMap item

inductive Branch (machine : Machine) (bytes : List UInt8) (item : Reader Json) : Nat → Reader Json → Prop where
  | posFix (n : Nat) (h : n < 128) : Branch machine bytes item n (pure (.num n))
  | negFix (n : Nat) (h : 0xe0 ≤ n) : Branch machine bytes item n (pure (.num (BitVec.ofNat 8 n).toInt))
  | nil : Branch machine bytes item 0xc0 (pure .null)
  | bool (b : Bool) : Branch machine bytes item (if b then 0xc3 else 0xc2) (pure (.bool b))
  | unsigned (size : Size) (h : size ≠ .b8) :
    Branch machine bytes item (0xcc + size.code) (readUnsigned bytes size >>= fun n => pure (.num n))
  | signed (size : Size) (h : size ≠ .b8) :
    Branch machine bytes item (0xd0 + size.code) (readSigned bytes size >>= fun n => pure (.num n))
  | fix (kind : Kind) (n : Nat) (h : n < kind.limit .fix) :
    Branch machine bytes item (kind.marker .fix + n) (decodeBody machine bytes item kind n)
  | sized (kind : Kind) (format : LenFormat) (size : Size) (hf : format.size = some size) (h : 0 < kind.limit format) :
    Branch machine bytes item (kind.marker format) (readUnsigned bytes size >>= decodeBody machine bytes item kind)
  | other (n : Nat) : Branch machine bytes item n (Reader.ofOption none)

section Markers
variable {machine : Machine} {bytes : List UInt8} {item : Reader Json}

theorem readUnsigned_b1 {α : Type} (f : Nat → Reader α) :
    readUnsigned bytes .b1 >>= f = readU8 bytes >>= fun v => f v.toNat :=
  Reader.bind_pure_bind (readU8 bytes) UInt8.toNat f

theorem Branch.ite {c : Prop} [Decidable c] {n : Nat} {x y : Reader Json} (hx : c → Branch machine bytes item n x)
    (hy : Branch machine bytes item n y) : Branch machine bytes item n (if c then x else y) := by
  split
  · exact hx ‹c›
  · exact hy

theorem decodeMarked_branch (marker : Nat) : Branch machine bytes item marker (decodeMarked machine bytes item marker) := by
  have fix (kind : Kind) (first : Nat) (hk : kind.marker .fix = first)
      (h : first ≤ marker ∧ marker < first + kind.limit .fix) :
      Branch machine bytes item marker (decodeBody machine bytes item kind (marker - first)) := by
    subst hk
    have hb : Branch machine bytes item _ _ := .fix kind (marker - kind.marker .fix) (by omega)
    rwa [Nat.add_sub_cancel' h.1] at hb
  have short (kind : Kind) (h : 0 < kind.limit .w8) :
      Branch machine bytes item (kind.marker .w8) (readU8 bytes >>= fun len => decodeBody machine bytes item kind len.toNat) :=
    readUnsigned_b1 (decodeBody machine bytes item kind) ▸ .sized kind .w8 .b1 rfl h
  have byte : Branch machine bytes item 0xcc (readU8 bytes >>= fun v => pure (.num v.toNat)) :=
    readUnsigned_b1 (fun n => (pure (.num n) : Reader Json)) ▸ .unsigned .b1 (by decide)
  refine .ite (fun h => .posFix _ (by omega)) ?_
  refine .ite (fun h => .negFix _ h) ?_
  refine .ite (fun h => h ▸ .nil) ?_
  refine .ite (fun h => h ▸ .bool false) ?_
  refine .ite (fun h => h ▸ .bool true) ?_
  refine .ite (fun h => h ▸ byte) ?_
  refine .ite (fun h => h ▸ .unsigned .b2 (by decide)) ?_
  refine .ite (fun h => h ▸ .unsigned .b4 (by decide)) ?_
  refine .ite (fun h => h ▸ .signed .b1 (by decide)) ?_
  refine .ite (fun h => h ▸ .signed .b2 (by decide)) ?_
  refine .ite (fun h => h ▸ .signed .b4 (by decide)) ?_
  refine .ite (fun h => fix .str _ rfl ⟨h.1, Nat.lt_succ_of_le h.2⟩) ?_
  refine .ite (fun h => h ▸ short .str (by decide)) ?_
  refine .ite (fun h => h ▸ .sized .str .w16 .b2 rfl (by decide)) ?_
  refine .ite (fun h => h ▸ .sized .str .w32 .b4 rfl (by decide)) ?_
  refine .ite (fun h => h ▸ short .bin (by decide)) ?_
  refine .ite (fun h => h ▸ .sized .bin .w16 .b2 rfl (by decide)) ?_
  refine .ite (fun h => h ▸ .sized .bin .w32 .b4 rfl (by decide)) ?_
  refine .ite (fun h => fix .arr _ rfl ⟨h.1, Nat.lt_succ_of_le h.2⟩) ?_
  refine .ite (fun h => h ▸ .sized .arr .w16 .b2 rfl (by decide)) ?_
  refine .ite (fun h => h ▸ .sized .arr .w32 .b4 rfl (by decide)) ?_
  refine .ite (fun h => fix .map _ rfl ⟨h.1, Nat.lt_succ_of_le h.2⟩) ?_
  refine .ite (fun h => h ▸ .sized .map .w16 .b2 rfl (by decide)) ?_
  refine .ite (fun h => h ▸ .sized .map .w32 .b4 rfl (by decide)) ?_
  exact .other _

end Markers

end Rustchat.MsgpackDecode
