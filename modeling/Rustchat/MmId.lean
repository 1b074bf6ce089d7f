import Mathlib.Data.BitVec
import Mathlib.Logic.Embedding.Basic
import Rustchat.Lib.Json
import Rustchat.Lib.Regroup

/-!
# Identifiers (`mattermost_compat/id.rs`, `utils/idCompat.ts`)

The server stores uuids and shows Mattermost clients the 26 base-32 digits of their 16 bytes. The web
client turns such an id back into the hyphenated text of the uuid, which is the key of everything it
stores (`normalizeEntityId_encodeMmId`), and leaves hyphenated texts alone.
-/

namespace Rustchat

open Regroup

abbrev Uuid := BitVec 128

instance : LawfulBEq Uuid := inferInstance

namespace Uuid

def number : Uuid ↪ ℕ := ⟨BitVec.toNat, BitVec.toNat_injective⟩

def asBytes (u : Uuid) : List Nat := toDigits (2 ^ 8) 16 u.toNat

theorem lt_of_mem_asBytes {u : Uuid} {b : Nat} (h : b ∈ u.asBytes) : b < 2 ^ 8 :=
  lt_of_mem_toDigits (by decide) h

@[simp] theorem length_asBytes (u : Uuid) : u.asBytes.length = 16 := length_toDigits _ _ _

theorem ofDigits_asBytes (u : Uuid) : ofDigits (2 ^ 8) u.asBytes = u.toNat := by
  rw [asBytes, ofDigits_toDigits]
  exact Nat.mod_eq_of_lt u.isLt

theorem asBytes_injective : Function.Injective asBytes := by
  intro u v h
  have hn := congrArg (ofDigits (2 ^ 8)) h
  rw [ofDigits_asBytes, ofDigits_asBytes] at hn
  exact BitVec.eq_of_toNat_eq hn

end Uuid

def hexText (bytes : List Nat) : List Char :=
  bytes.flatMap fun b => [(b / 16).digitChar, (b % 16).digitChar]

def hyphenate (hex : List Char) : List Char :=
  hex.take 8 ++ '-' :: (hex.drop 8).take 4 ++ '-' :: (hex.drop 12).take 4 ++
    '-' :: (hex.drop 16).take 4 ++ '-' :: (hex.drop 20).take 12

/-- The text of a uuid, as it is displayed and serialized. -/
def Uuid.hyphenated (u : Uuid) : String := String.ofList (hyphenate (hexText u.asBytes))

/-- Reading the displayed text, one of the forms that `Uuid::parse_str` takes. -/
def Uuid.ofHyphenated (text : String) : Option Uuid :=
  let hex := text.toList.filter (· ≠ '-')
  if hex.length = 32 ∧ text.toList = hyphenate hex then
    (hex.mapM Json.hexVal).map fun digits => BitVec.ofNat 128 (ofDigits 16 digits)
  else none

def mmIdAlphabet : List Char := "ybndrfg8ejkmcpqxot1uwisza345h769".toList

/-- The base-32 digits of `encode_base32`, the last one padded with zero bits. -/
def encodeDigits (bytes : List Nat) : List Nat :=
  let s := run 8 5 bytes
  if 0 < s.bits then s.digits ++ [(s.buffer <<< (5 - s.bits)) % 2 ^ 32 % 2 ^ 5] else s.digits

def encodeBase32 (bytes : List Nat) : List Char :=
  (encodeDigits bytes).map fun index => mmIdAlphabet.getD index 'y'

def encodeMmId (uuid : Uuid) : String := String.ofList (encodeBase32 uuid.asBytes)

def decodeChar (ch : Char) : Option Nat := mmIdAlphabet.idxOf? ch.toLower

def decodeBase32 (input : List Char) : Option (List Nat) :=
  (input.mapM decodeChar).bind fun values =>
    let bytes := (run 5 8 values).digits
    if bytes.length < 16 then none else some (bytes.take 16)

def decodeMmId (id : String) : Option Uuid :=
  if id.utf8ByteSize ≠ 26 then none
  else (decodeBase32 id.toList).map fun bytes => BitVec.ofNat 128 (ofDigits (2 ^ 8) bytes)

/-- `parseStr` is `Uuid::parse_str`. -/
def parseMmOrUuid (parseStr : String → Option Uuid) (id : String) : Option Uuid :=
  (parseStr id).or (decodeMmId id)

-- `/^[a-z0-9]{26}$/i`
def matchesMmIdRe (id : List Char) : Bool := decide (id.length = 26) && id.all Char.isAlphanum

/-- The variables of the loop of `decodeMattermostId`. A bitwise operation leaves a signed integer of 32 bits. -/
structure IdBuffer where
  buffer : BitVec 32
  bits : Nat
  bytes : List Nat

-- `while (bits >= 8)`; `>>` keeps the sign
def IdBuffer.drain : Nat → IdBuffer → IdBuffer
  | 0, s => s
  | fuel + 1, s =>
    if 8 ≤ s.bits then
      IdBuffer.drain fuel { s with
        bytes := s.bytes ++ [(s.buffer.sshiftRight (s.bits - 8) &&& 0xff#32).toNat]
        bits := s.bits - 8 }
    else s

def IdBuffer.push (s : IdBuffer) (value : Nat) : IdBuffer :=
  let s := { s with buffer := s.buffer <<< 5 ||| BitVec.ofNat 32 value, bits := s.bits + 5 }
  s.drain s.bits

-- the alphabet holds no upper-case letter
def decodeMattermostId (id : String) : Option String :=
  if matchesMmIdRe id.toList then
    ((id.toList.map Char.toLower).mapM fun c => mmIdAlphabet.idxOf? c).bind fun values =>
      let bytes := (values.foldl IdBuffer.push ⟨0, 0, []⟩).bytes
      if bytes.length < 16 then none else some (String.ofList (hyphenate (hexText (bytes.take 16))))
  else none

def isHexDigit (c : Char) : Bool :=
  c.isDigit || (decide ('a' ≤ c) && decide (c ≤ 'f')) || (decide ('A' ≤ c) && decide (c ≤ 'F'))

-- `/^[0-9a-f]{8}-[0-9a-f]{4}-[1-5][0-9a-f]{3}-[89ab][0-9a-f]{3}-[0-9a-f]{12}$/i`
def matchesUuidRe (value : List Char) : Bool :=
  let hex := value.filter (· ≠ '-')
  decide (value = hyphenate hex) && decide (hex.length = 32) && hex.all isHexDigit &&
    ['1', '2', '3', '4', '5'].contains (hex.getD 12 ' ') &&
    ['8', '9', 'a', 'b', 'A', 'B'].contains (hex.getD 16 ' ')

def normalizeEntityId (value : String) : Option String :=
  if value.toList.length = 0 then none
  else if matchesUuidRe value.toList then some (String.ofList (value.toList.map Char.toLower))
  else some ((decodeMattermostId value).getD value)

theorem encodeDigits_asBytes (u : Uuid) : encodeDigits u.asBytes = toDigits (2 ^ 5) 26 (u.toNat * 4) := by
  obtain ⟨h, hb⟩ := run_spec (w := 8) (v := 5) (by decide) (by decide) fun _ => u.lt_of_mem_asBytes
  rw [u.ofDigits_asBytes, u.length_asBytes] at h
  have htotal := h.total
  have hbits : (run 8 5 u.asBytes).bits = 3 := by omega
  have hlen : (run 8 5 u.asBytes).digits.length = 25 := by omega
  have hbuf := h.buffer
  have hval := h.value
  rw [hbits] at hbuf hval
  have hlast : ((run 8 5 u.asBytes).buffer <<< (5 - 3)) % 2 ^ 32 % 2 ^ 5 = u.toNat % 8 * 4 := by
    rw [Nat.shiftLeft_eq]; omega
  unfold encodeDigits
  simp only [hbits, Nat.zero_lt_succ, ↓reduceIte, hlast]
  refine eq_toDigits ?_ ?_ ?_
  · intro d hd
    rcases List.mem_append.1 hd with hd | hd
    · exact h.digit_lt d hd
    · rw [List.mem_singleton.1 hd]; omega
  · rw [List.length_append, hlen]; rfl
  · rw [ofDigits_concat, hval]; omega

theorem run_encodeDigits (u : Uuid) : (run 5 8 (encodeDigits u.asBytes)).digits = u.asBytes := by
  rw [encodeDigits_asBytes]
  obtain ⟨h, hb⟩ := run_spec (w := 5) (v := 8) (by decide) (by decide)
    fun _ => lt_of_mem_toDigits (B := 2 ^ 5) (k := 26) (n := u.toNat * 4) (by decide)
  have hlt := u.isLt
  have hmod : u.toNat * 4 % (2 ^ 5) ^ 26 = u.toNat * 4 := Nat.mod_eq_of_lt (by omega)
  rw [ofDigits_toDigits, length_toDigits, hmod] at h
  have htotal := h.total
  have hbits : (run 5 8 (toDigits (2 ^ 5) 26 (u.toNat * 4))).bits = 2 := by omega
  have hval := h.value
  rw [hbits] at hval
  refine eq_toDigits h.digit_lt (by omega) ?_
  rw [hval]; omega

/-- `s` holds what the register of the server holds. -/
structure IdBuffer.Tracks (s : IdBuffer) (r : Register) : Prop where
  buffer : s.buffer.toNat = r.buffer
  bits : s.bits = r.bits
  bytes : s.bytes = r.digits

theorem toNat_sshiftRight_and {b : BitVec 32} {k : Nat} (h : k + 8 ≤ 32) :
    (b.sshiftRight k &&& 0xff#32).toNat = (b.toNat >>> k) % 2 ^ 8 := by
  refine Nat.eq_of_testBit_eq fun i => ?_
  have hmask : (0xff#32).getLsbD i = decide (i < 8) := Nat.testBit_two_pow_sub_one 8 i
  rw [BitVec.testBit_toNat, BitVec.getLsbD_and, BitVec.getLsbD_sshiftRight, hmask, Nat.testBit_mod_two_pow,
    Nat.testBit_shiftRight, BitVec.testBit_toNat]
  by_cases hi : i < 8
  · have h1 : ¬ 32 ≤ i := by omega
    have h2 : k + i < 32 := by omega
    simp [h1, h2, hi]
  · simp [hi]

namespace IdBuffer.Tracks

variable {s : IdBuffer} {r : Register}

theorem drain (h : s.Tracks r) (hb : r.bits ≤ 32) (fuel : Nat) : (s.drain fuel).Tracks (r.drain 8 fuel) := by
  induction fuel generalizing s r with
  | zero => exact h
  | succ fuel ih =>
    rw [IdBuffer.drain, Register.drain, h.bits]
    split
    · next hle =>
      refine ih ⟨h.buffer, rfl, ?_⟩ ((Nat.sub_le _ _).trans hb)
      show s.bytes ++ _ = r.digits ++ _
      rw [h.bytes, toNat_sshiftRight_and (by omega), h.buffer]
    · exact h

theorem push {d : Nat} (h : s.Tracks r) (hb : r.bits < 8) (hd : d < 2 ^ 5) :
    (s.push d).Tracks (r.feed 5 8 d) := by
  have hshift : Tracks { s with buffer := s.buffer <<< 5 ||| BitVec.ofNat 32 d, bits := r.bits + 5 } (r.shift 5 d) := by
    refine ⟨?_, rfl, h.bytes⟩
    show (s.buffer <<< 5 ||| BitVec.ofNat 32 d).toNat = (r.buffer <<< 5) % 2 ^ 32 ||| d
    rw [BitVec.toNat_or, BitVec.toNat_shiftLeft, BitVec.toNat_ofNat, h.buffer,
      Nat.mod_eq_of_lt (a := d) (by omega)]
  rw [IdBuffer.push, Register.feed, h.bits]
  exact hshift.drain (by show r.bits + 5 ≤ 32; omega) _

theorem foldl {values : List Nat} (h : ∀ d ∈ values, d < 2 ^ 5) :
    (values.foldl IdBuffer.push ⟨0, 0, []⟩).Tracks (run 5 8 values) := by
  induction values using List.reverseRecOn with
  | nil => exact ⟨rfl, rfl, rfl⟩
  | append_singleton values d ih =>
    have hvalues : ∀ e ∈ values, e < 2 ^ 5 := fun e he => h e (List.mem_append_left _ he)
    have hb := (run_spec (w := 5) (v := 8) (by decide) (by decide) hvalues).2
    simp only [run, List.foldl_append, List.foldl_cons, List.foldl_nil]
    exact (ih hvalues).push hb (h d (by simp))

end IdBuffer.Tracks

theorem decodeChar_alphabet : ∀ i < 32, decodeChar (mmIdAlphabet.getD i 'y') = some i := by decide

theorem alphabet_lower : ∀ i < 32, (mmIdAlphabet.getD i 'y').toLower = mmIdAlphabet.getD i 'y' ∧
    (mmIdAlphabet.getD i 'y').isAlphanum = true := by decide

theorem encodeDigits_lt {u : Uuid} {i : Nat} (h : i ∈ encodeDigits u.asBytes) : i < 32 := by
  rw [encodeDigits_asBytes] at h
  exact lt_of_mem_toDigits (B := 2 ^ 5) (by decide) h

@[simp] theorem length_encodeBase32 (u : Uuid) : (encodeBase32 u.asBytes).length = 26 := by
  rw [encodeBase32, List.length_map, encodeDigits_asBytes, length_toDigits]

theorem mapM_decodeChar (u : Uuid) :
    (encodeBase32 u.asBytes).mapM decodeChar = some (encodeDigits u.asBytes) := by
  rw [encodeBase32, List.mapM_map]
  have h : ∀ ds : List Nat, (∀ d ∈ ds, d < 32) →
      ds.mapM (fun i => decodeChar (mmIdAlphabet.getD i 'y')) = some ds := by
    intro ds hds
    induction ds with
    | nil => rfl
    | cons d ds ih =>
      rw [List.mapM_cons, decodeChar_alphabet d (hds d List.mem_cons_self),
        ih fun e he => hds e (List.mem_cons_of_mem _ he)]
      rfl
  exact h _ fun _ => encodeDigits_lt

theorem take_asBytes (u : Uuid) : u.asBytes.take 16 = u.asBytes :=
  List.take_of_length_le (Nat.le_of_eq u.length_asBytes)

theorem utf8Size_of_isAlphanum {c : Char} (h : c.isAlphanum = true) : c.utf8Size = 1 := by
  rw [Char.utf8Size_eq_one_iff]
  have hranges : (decide (c.val ≥ 65 ∧ c.val ≤ 90) || (c.val ≥ 97 && c.val ≤ 122) || (c.val ≥ 48 && c.val ≤ 57)) = true := h
  simp only [Bool.or_eq_true, Bool.and_eq_true, decide_eq_true_eq] at hranges
  rcases hranges with (⟨-, h⟩ | ⟨-, h⟩) | ⟨-, h⟩ <;> exact UInt32.le_trans h (by decide)

theorem utf8ByteSize_of_isAlphanum {id : String} (h : ∀ c ∈ id.toList, c.isAlphanum = true) :
    id.utf8ByteSize = id.toList.length := by
  have hsize : ∀ cs : List Char, (∀ c ∈ cs, c.isAlphanum = true) →
    (String.ofList cs).utf8ByteSize = cs.length := by
    intro cs hcs
    induction cs with
    | nil => rfl
    | cons c cs ih =>
      rw [String.ofList_cons, String.utf8ByteSize_append, String.utf8ByteSize_singleton,
        utf8Size_of_isAlphanum (hcs c List.mem_cons_self), ih fun d hd => hcs d (List.mem_cons_of_mem _ hd),
        List.length_cons, Nat.add_comm]
  rw [← hsize id.toList h, String.ofList_toList]

theorem toList_encodeMmId (u : Uuid) : (encodeMmId u).toList = encodeBase32 u.asBytes := String.toList_ofList

theorem isAlphanum_of_mem_encodeMmId {u : Uuid} {c : Char} (h : c ∈ (encodeMmId u).toList) :
    c.isAlphanum = true := by
  rw [toList_encodeMmId] at h
  obtain ⟨i, hi, rfl⟩ := List.mem_map.1 h
  exact (alphabet_lower i (encodeDigits_lt hi)).2

theorem utf8ByteSize_encodeMmId (u : Uuid) : (encodeMmId u).utf8ByteSize = 26 := by
  rw [utf8ByteSize_of_isAlphanum fun _ => isAlphanum_of_mem_encodeMmId, toList_encodeMmId,
    length_encodeBase32]

theorem decodeMmId_encodeMmId (u : Uuid) : decodeMmId (encodeMmId u) = some u := by
  rw [decodeMmId, utf8ByteSize_encodeMmId, toList_encodeMmId, decodeBase32, mapM_decodeChar]
  simp only [ne_eq, not_true_eq_false, ↓reduceIte, Option.bind_some, run_encodeDigits, u.length_asBytes,
    Nat.lt_irrefl, take_asBytes, Option.map_some, u.ofDigits_asBytes, BitVec.ofNat_toNat, BitVec.setWidth_eq]

theorem encodeMmId_injective : Function.Injective encodeMmId := fun a b hab =>
  Option.some.inj ((decodeMmId_encodeMmId a).symm.trans ((congrArg decodeMmId hab).trans (decodeMmId_encodeMmId b)))

theorem parse_encodeMmId {parseStr : String → Option Uuid} (h : ∀ id, parseStr (encodeMmId id) = none) (id : Uuid) :
    parseMmOrUuid parseStr (encodeMmId id) = some id := by
  rw [parseMmOrUuid, h, decodeMmId_encodeMmId]
  rfl

/-! ### The two decoders -/

theorem decodeChar_spec {c : Char} {i : Nat} (h : decodeChar c = some i) :
    c.isAlphanum = true ∧ i < 2 ^ 5 := by
  obtain ⟨hi, hget, -⟩ := List.idxOf?_eq_some_iff.1 h
  have hlt : i < 32 := hi
  refine ⟨?_, hlt⟩
  have hlower : c.toLower.isAlphanum = true := by
    have halpha := (alphabet_lower i hlt).2
    rw [List.getD_eq_getElem?_getD, List.getElem?_eq_getElem hi, hget] at halpha
    exact halpha
  unfold Char.toLower at hlower
  split at hlower
  · next hup =>
    have hupper : c.isUpper = true := decide_eq_true hup
    show (c.isUpper || c.isLower || c.isDigit) = true
    rw [hupper]
    rfl
  · exact hlower

theorem mapM_decodeChar_spec {cs : List Char} {values : List Nat} (h : cs.mapM decodeChar = some values) :
    (∀ c ∈ cs, c.isAlphanum = true) ∧ ∀ v ∈ values, v < 2 ^ 5 := by
  induction cs generalizing values with
  | nil =>
    obtain rfl : [] = values := Option.some.inj h
    exact ⟨List.forall_mem_nil _, List.forall_mem_nil _⟩
  | cons c cs ih =>
    rw [List.mapM_cons] at h
    obtain ⟨v, hv, h⟩ := Option.bind_eq_some_iff.1 h
    obtain ⟨vs, hvs, h⟩ := Option.bind_eq_some_iff.1 h
    obtain rfl := Option.some.inj h
    obtain ⟨hc, hlt⟩ := decodeChar_spec hv
    obtain ⟨hcs, hlts⟩ := ih hvs
    exact ⟨List.forall_mem_cons.2 ⟨hc, hcs⟩, List.forall_mem_cons.2 ⟨hlt, hlts⟩⟩

theorem hyphenated_ofDigits {bytes : List Nat} (h : ∀ b ∈ bytes, b < 2 ^ 8) (hlen : bytes.length = 16) :
    Uuid.hyphenated (BitVec.ofNat 128 (ofDigits (2 ^ 8) bytes)) = String.ofList (hyphenate (hexText bytes)) := by
  have htoDigits := toDigits_ofDigits h
  have hmod : ofDigits (2 ^ 8) bytes % 2 ^ 128 = ofDigits (2 ^ 8) bytes := by
    have hpow : (2 : Nat) ^ 128 = (2 ^ 8) ^ bytes.length := by rw [hlen, ← Nat.pow_mul]
    rw [hpow, ← ofDigits_toDigits, htoDigits]
  rw [hlen] at htoDigits
  rw [Uuid.hyphenated, Uuid.asBytes, BitVec.toNat_ofNat, hmod, htoDigits]

theorem decodeMattermostId_eq (id : String) :
    decodeMattermostId id = (decodeMmId id).map Uuid.hyphenated := by
  have hmapM : ((id.toList.map Char.toLower).mapM fun c => mmIdAlphabet.idxOf? c) = id.toList.mapM decodeChar :=
    List.mapM_map
  rw [decodeMattermostId, decodeMmId, hmapM, decodeBase32]
  cases hvalues : id.toList.mapM decodeChar with
  | none => simp only [Option.bind_none, Option.map_none, ite_self]
  | some values =>
    obtain ⟨hcs, hlt⟩ := mapM_decodeChar_spec hvalues
    rw [utf8ByteSize_of_isAlphanum hcs]
    by_cases hlen : id.toList.length = 26
    · have hre : matchesMmIdRe id.toList = true := by
        rw [matchesMmIdRe, Bool.and_eq_true]
        exact ⟨decide_eq_true hlen, List.all_eq_true.2 hcs⟩
      obtain ⟨hholds, -⟩ := run_spec (w := 5) (v := 8) (by decide) (by decide) hlt
      rw [hre, if_pos rfl, if_neg (not_not.2 hlen), Option.bind_some, Option.bind_some,
        (IdBuffer.Tracks.foldl hlt).bytes]
      dsimp only
      split
      · rfl
      · next hshort =>
        rw [Option.map_some, Option.map_some, hyphenated_ofDigits]
        · exact fun b hb => hholds.digit_lt b (List.mem_of_mem_take hb)
        · rw [List.length_take]; omega
    · have hre : matchesMmIdRe id.toList = false := by
        rw [matchesMmIdRe, decide_eq_false hlen, Bool.false_and]
      rw [hre, if_pos hlen]
      rfl

theorem decodeMattermostId_encodeMmId (u : Uuid) : decodeMattermostId (encodeMmId u) = some u.hyphenated := by
  rw [decodeMattermostId_eq, decodeMmId_encodeMmId, Option.map_some]

/-! ### Hyphenated texts -/

theorem hexText_cons (b : Nat) (bytes : List Nat) :
    hexText (b :: bytes) = (b / 16).digitChar :: (b % 16).digitChar :: hexText bytes := rfl

theorem length_hexText (bytes : List Nat) : (hexText bytes).length = 2 * bytes.length := by
  induction bytes with
  | nil => rfl
  | cons b bytes ih => rw [hexText_cons, List.length_cons, List.length_cons, ih, List.length_cons]; omega

theorem digitChar_spec : ∀ d < 16, isHexDigit d.digitChar = true ∧ d.digitChar.toLower = d.digitChar ∧
    d.digitChar ≠ '-' ∧ Json.hexVal d.digitChar = some d := by decide

theorem forall_mem_hexText {p : Char → Prop} (hp : ∀ d < 16, p d.digitChar) {bytes : List Nat}
    (h : ∀ b ∈ bytes, b < 2 ^ 8) : ∀ c ∈ hexText bytes, p c := by
  intro c hc
  obtain ⟨b, hb, hc⟩ := List.mem_flatMap.1 hc
  have hlt := h b hb
  rcases List.mem_cons.1 hc with rfl | hc
  · exact hp _ (by omega)
  · rw [List.mem_singleton.1 hc]; exact hp _ (by omega)

theorem digitChar_inj {d e : Nat} (hd : d < 16) (he : e < 16) (h : d.digitChar = e.digitChar) : d = e := by
  have hv := congrArg Json.hexVal h
  rw [(digitChar_spec d hd).2.2.2, (digitChar_spec e he).2.2.2] at hv
  exact Option.some.inj hv

theorem hexText_injective {as bs : List Nat} (ha : ∀ b ∈ as, b < 2 ^ 8) (hb : ∀ b ∈ bs, b < 2 ^ 8)
    (h : hexText as = hexText bs) : as = bs := by
  induction as generalizing bs with
  | nil =>
    cases bs with
    | nil => rfl
    | cons b bs => cases h
  | cons a as ih =>
    cases bs with
    | nil => cases h
    | cons b bs =>
      rw [hexText_cons, hexText_cons, List.cons.injEq, List.cons.injEq] at h
      have hlta := ha a List.mem_cons_self
      have hltb := hb b List.mem_cons_self
      have hhigh := digitChar_inj (by omega) (by omega) h.1
      have hlow := digitChar_inj (by omega) (by omega) h.2.1
      rw [ih (fun c hc => ha c (List.mem_cons_of_mem _ hc)) (fun c hc => hb c (List.mem_cons_of_mem _ hc)) h.2.2,
        show a = b by omega]

theorem length_hyphenate {hex : List Char} (h : hex.length = 32) : (hyphenate hex).length = 36 := by
  simp [hyphenate, h]

theorem filter_hyphenate {hex : List Char} (hlen : hex.length = 32) (h : ∀ c ∈ hex, c ≠ '-') :
    (hyphenate hex).filter (· ≠ '-') = hex := by
  have hf : ∀ n k, ((hex.drop n).take k).filter (· ≠ '-') = (hex.drop n).take k := fun n k =>
    List.filter_eq_self.2 fun c hc => decide_eq_true (h c (List.mem_of_mem_drop (List.mem_of_mem_take hc)))
  have h20 : (hex.drop 20).take 12 = hex.drop 20 :=
    List.take_of_length_le (by rw [List.length_drop, hlen])
  have hstep : ∀ n k, (hex.drop n).take k ++ hex.drop (n + k) = hex.drop n := fun n k => by
    rw [← List.drop_drop]; exact List.take_append_drop k _
  have h0 := hf 0 8
  rw [List.drop_zero] at h0
  unfold hyphenate
  simp only [List.filter_append, List.filter_cons, ne_eq, not_true_eq_false, decide_false,
    Bool.false_eq_true, ↓reduceIte]
  simp only [ne_eq] at h0 hf
  rw [h0, hf, hf, hf, hf, h20, List.append_assoc, List.append_assoc, List.append_assoc, hstep 16 4, hstep 12 4,
    hstep 8 4, List.take_append_drop]

theorem mem_hyphenate {hex : List Char} {c : Char} (h : c ∈ hyphenate hex) : c = '-' ∨ c ∈ hex := by
  unfold hyphenate at h
  simp only [List.mem_append, List.mem_cons] at h
  rcases h with (((h | h | h) | h | h) | h | h) | h | h
  · exact .inr (List.mem_of_mem_take h)
  all_goals first | exact .inl h | exact .inr (List.mem_of_mem_drop (List.mem_of_mem_take h))

namespace Uuid

theorem toList_hyphenated (u : Uuid) : u.hyphenated.toList = hyphenate (hexText u.asBytes) :=
  String.toList_ofList

theorem length_hexText_asBytes (u : Uuid) : (hexText u.asBytes).length = 32 := by
  rw [length_hexText, length_asBytes]

theorem hexText_ne (u : Uuid) : ∀ c ∈ hexText u.asBytes, c ≠ '-' :=
  forall_mem_hexText (fun d hd => (digitChar_spec d hd).2.2.1) fun _ => lt_of_mem_asBytes

theorem hyphenated_injective : Function.Injective hyphenated := by
  intro u v h
  have hl := congrArg String.toList h
  rw [toList_hyphenated, toList_hyphenated] at hl
  have hf := congrArg (List.filter (· ≠ '-')) hl
  rw [filter_hyphenate u.length_hexText_asBytes u.hexText_ne,
    filter_hyphenate v.length_hexText_asBytes v.hexText_ne] at hf
  exact asBytes_injective (hexText_injective (fun _ => lt_of_mem_asBytes) (fun _ => lt_of_mem_asBytes) hf)

theorem mapM_hexText {bytes : List Nat} (h : ∀ b ∈ bytes, b < 2 ^ 8) :
    (hexText bytes).mapM Json.hexVal = some (bytes.flatMap fun b => [b / 16, b % 16]) := by
  induction bytes with
  | nil => rfl
  | cons b bytes ih =>
    have hb := h b List.mem_cons_self
    rw [hexText_cons, List.mapM_cons, List.mapM_cons, (digitChar_spec (b / 16) (by omega)).2.2.2,
      (digitChar_spec (b % 16) (by omega)).2.2.2, ih fun c hc => h c (List.mem_cons_of_mem _ hc)]
    rfl

theorem ofDigits_flatMap (bytes : List Nat) :
    ofDigits 16 (bytes.flatMap fun b => [b / 16, b % 16]) = ofDigits (2 ^ 8) bytes := by
  unfold ofDigits
  generalize 0 = n
  induction bytes generalizing n with
  | nil => rfl
  | cons b bytes ih =>
    have hdigit : (n * 16 + b / 16) * 16 + b % 16 = n * 2 ^ 8 + b := by omega
    rw [List.flatMap_cons, List.foldl_append, ih]
    show List.foldl _ ((n * 16 + b / 16) * 16 + b % 16) bytes = List.foldl _ (n * 2 ^ 8 + b) bytes
    rw [hdigit]

theorem ofHyphenated_hyphenated (u : Uuid) : ofHyphenated u.hyphenated = some u := by
  have hfilter := filter_hyphenate u.length_hexText_asBytes u.hexText_ne
  rw [ofHyphenated, toList_hyphenated]
  simp only [hfilter, u.length_hexText_asBytes, and_self, ↓reduceIte]
  rw [mapM_hexText fun _ => lt_of_mem_asBytes, Option.map_some, ofDigits_flatMap, ofDigits_asBytes]
  simp

theorem hyphenated_lower (u : Uuid) : u.hyphenated.toList.map Char.toLower = u.hyphenated.toList := by
  refine (List.map_congr_left fun c hc => ?_).trans (List.map_id _)
  rw [toList_hyphenated] at hc
  rcases mem_hyphenate hc with rfl | hc
  · rfl
  · exact forall_mem_hexText (p := fun c => c.toLower = c) (fun d hd => (digitChar_spec d hd).2.1)
      (fun _ => lt_of_mem_asBytes) c hc

theorem length_hyphenated (u : Uuid) : u.hyphenated.toList.length = 36 := by
  rw [toList_hyphenated, length_hyphenate u.length_hexText_asBytes]

end Uuid

theorem ofHyphenated_encodeMmId (id : Uuid) : Uuid.ofHyphenated (encodeMmId id) = none := by
  have hlen : (encodeMmId id).toList.length = 26 := by rw [toList_encodeMmId, length_encodeBase32]
  unfold Uuid.ofHyphenated
  rw [if_neg]
  rintro ⟨hhex, htext⟩
  have hlong := length_hyphenate hhex
  rw [← htext, hlen] at hlong
  cases hlong

theorem normalizeEntityId_hyphenated (u : Uuid) : normalizeEntityId u.hyphenated = some u.hyphenated := by
  have hlen := u.length_hyphenated
  have hre : matchesMmIdRe u.hyphenated.toList = false := by
    rw [matchesMmIdRe, hlen]; rfl
  rw [normalizeEntityId, if_neg (by omega)]
  split
  · rw [u.hyphenated_lower, String.ofList_toList]
  · rw [decodeMattermostId, hre]; rfl

theorem normalizeEntityId_encodeMmId (u : Uuid) : normalizeEntityId (encodeMmId u) = some u.hyphenated := by
  have hlen : (encodeMmId u).toList.length = 26 := by
    rw [toList_encodeMmId, length_encodeBase32]
  have hre : matchesUuidRe (encodeMmId u).toList = false := by
    unfold matchesUuidRe
    by_cases hx : ((encodeMmId u).toList.filter (· ≠ '-')).length = 32
    · have := List.length_filter_le (fun c => decide (c ≠ '-')) (encodeMmId u).toList
      omega
    · simp only [hx, decide_false, Bool.and_false, Bool.false_and]
  rw [normalizeEntityId, if_neg (by omega), hre, decodeMattermostId_encodeMmId]
  rfl

/-- The client decodes a text exactly if the server does and to the same uuid, so that every uuid has one key on
the client, whichever side wrote its id. -/
theorem decoders_agree : (∀ id, decodeMattermostId id = (decodeMmId id).map Uuid.hyphenated) ∧
    ∀ u, normalizeEntityId (encodeMmId u) = some u.hyphenated :=
  ⟨decodeMattermostId_eq, normalizeEntityId_encodeMmId⟩

end Rustchat
