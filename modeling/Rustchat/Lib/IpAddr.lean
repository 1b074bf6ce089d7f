import Mathlib.Data.List.TakeWhile
import Mathlib.Data.Nat.Bitwise

/-!
# IP addresses and their texts

`IpAddr.parse` reads an address as `std::net` of Rust does: four decimal numbers without leading zeros, or up to eight
hexadecimal ones of which `::` stands for zeros, the last two perhaps written as an IPv4 address. A network is given by
the bits that its addresses begin with (`Ipv4Addr.InNet`, `Ipv6Addr.InNet`).
-/

structure Ipv4Addr where
  (a b c d : UInt8)
deriving DecidableEq

structure Ipv6Addr where
  segments : Vector UInt16 8
deriving DecidableEq

inductive IpAddr
  | v4 (addr : Ipv4Addr)
  | v6 (addr : Ipv6Addr)
deriving DecidableEq

def Ipv4Addr.toNat (addr : Ipv4Addr) : ℕ :=
  [addr.a, addr.b, addr.c, addr.d].foldl (fun n octet => n * 2 ^ 8 + octet.toNat) 0

def Ipv6Addr.toNat (addr : Ipv6Addr) : ℕ := addr.segments.toList.foldl (fun n segment => n * 2 ^ 16 + segment.toNat) 0

/-- The address begins with the first `len` bits of another. -/
def Ipv4Addr.InNet (addr net : Ipv4Addr) (len : ℕ) : Prop := addr.toNat / 2 ^ (32 - len) = net.toNat / 2 ^ (32 - len)

def Ipv6Addr.InNet (addr net : Ipv6Addr) (len : ℕ) : Prop := addr.toNat / 2 ^ (128 - len) = net.toNat / 2 ^ (128 - len)

theorem IpAddr.land_mask (s j k : ℕ) : s &&& (2 ^ j - 1) * 2 ^ k = s / 2 ^ k % 2 ^ j * 2 ^ k := by
  have hpos : 0 < 2 ^ k := Nat.two_pow_pos k
  have hdiv : (s &&& (2 ^ j - 1) * 2 ^ k) / 2 ^ k = s / 2 ^ k % 2 ^ j := by
    rw [Nat.and_div_two_pow, Nat.mul_div_cancel _ hpos, Nat.and_two_pow_sub_one_eq_mod]
  have hmod : (s &&& (2 ^ j - 1) * 2 ^ k) % 2 ^ k = 0 := by
    rw [Nat.and_mod_two_pow, Nat.mul_mod_left, Nat.and_zero]
  rw [← hdiv, Nat.div_mul_cancel (Nat.dvd_of_mod_eq_zero hmod)]

namespace IpAddr

/-! ### Reading -/

/-- `char::to_digit` -/
def digitOf (radix : ℕ) (c : Char) : Option ℕ :=
  let value := if '0' ≤ c ∧ c ≤ '9' then some (c.toNat - '0'.toNat)
    else if 'a' ≤ c ∧ c ≤ 'z' then some (c.toNat - 'a'.toNat + 10)
    else if 'A' ≤ c ∧ c ≤ 'Z' then some (c.toNat - 'A'.toNat + 10)
    else none
  value.filter (· < radix)

/-- The number at the beginning of a text, below `bound`, and what follows. -/
def readNumber (radix maxDigits bound : ℕ) (zeroPrefix : Bool) (text : List Char) : Option (ℕ × List Char) :=
  let digits := text.takeWhile fun c => (digitOf radix c).isSome
  let value := digits.foldl (fun n c => n * radix + (digitOf radix c).getD 0) 0
  if digits = [] ∨ maxDigits < digits.length ∨ (zeroPrefix = false ∧ digits.head? = some '0' ∧ 1 < digits.length) ∨
    bound ≤ value then none
  else some (value, text.drop digits.length)

def readGivenChar (given : Char) : List Char → Option (List Char)
  | c :: text => if c = given then some text else none
  | [] => none

def readOctet (text : List Char) : Option (UInt8 × List Char) :=
  (readNumber 10 3 256 false text).map fun r => (UInt8.ofNat r.1, r.2)

def readDotOctet (text : List Char) : Option (UInt8 × List Char) := (readGivenChar '.' text).bind readOctet

def readIpv4 (text : List Char) : Option (Ipv4Addr × List Char) :=
  (readOctet text).bind fun a =>
  (readDotOctet a.2).bind fun b =>
  (readDotOctet b.2).bind fun c =>
  (readDotOctet c.2).map fun d => (⟨a.1, b.1, c.1, d.1⟩, d.2)

/-- Up to `left` groups, whether an IPv4 address is the end of them, and what follows. -/
def readGroups : Bool → ℕ → List Char → List ℕ × Bool × List Char
  | _, 0, text => ([], false, text)
  | first, left + 1, text =>
    let start := if first then some text else readGivenChar ':' text
    match (if 0 < left then start.bind readIpv4 else none) with
    | some (addr, rest) => ([addr.a.toNat * 256 + addr.b.toNat, addr.c.toNat * 256 + addr.d.toNat], true, rest)
    | none => match start.bind (readNumber 16 4 65536 true) with
      | some (group, rest) =>
        let (groups, ipv4, rest) := readGroups false left rest
        (group :: groups, ipv4, rest)
      | none => ([], false, text)

def ofGroups (groups : List ℕ) : Ipv6Addr := ⟨Vector.ofFn fun i => UInt16.ofNat (groups.getD i 0)⟩

def readIpv6 (text : List Char) : Option (Ipv6Addr × List Char) :=
  let (head, ipv4, rest) := readGroups true 8 text
  if head.length = 8 then some (ofGroups head, rest)
  else if ipv4 then none
  else ((readGivenChar ':' rest).bind (readGivenChar ':')).map fun rest =>
    let (tail, _, rest) := readGroups true (7 - head.length) rest
    (ofGroups (head ++ List.replicate (8 - head.length - tail.length) 0 ++ tail), rest)

/-- `str::parse::<IpAddr>`: a text that is an address from its beginning to its end. -/
def parse (text : String) : Option IpAddr :=
  match ((readIpv4 text.toList).map fun r => (v4 r.1, r.2)) <|> (readIpv6 text.toList).map fun r => (v6 r.1, r.2) with
  | some (addr, []) => some addr
  | _ => none

end IpAddr

/-! ### The text of an IPv4 address -/

def octetText (n : UInt8) : List Char := Nat.toDigits 10 n.toNat

/-- Four decimal numbers with dots between them. -/
def Ipv4Addr.text (addr : Ipv4Addr) : String :=
  String.ofList (octetText addr.a ++ '.' :: (octetText addr.b ++ '.' :: (octetText addr.c ++ '.' :: octetText addr.d)))

namespace IpAddr

theorem octetText_spec (n : UInt8) : (octetText n).all (fun c => (digitOf 10 c).isSome) = true ∧ octetText n ≠ [] ∧
    (octetText n).length ≤ 3 ∧ ((octetText n).head? = some '0' → (octetText n).length ≤ 1) ∧
      (octetText n).foldl (fun n c => n * 10 + (digitOf 10 c).getD 0) 0 = n.toNat := by
  have hall : ∀ k < 256, (Nat.toDigits 10 k).all (fun c => (digitOf 10 c).isSome) = true ∧ Nat.toDigits 10 k ≠ [] ∧
      (Nat.toDigits 10 k).length ≤ 3 ∧ ((Nat.toDigits 10 k).head? = some '0' → (Nat.toDigits 10 k).length ≤ 1) ∧
        (Nat.toDigits 10 k).foldl (fun n c => n * 10 + (digitOf 10 c).getD 0) 0 = k := by
    decide +kernel
  exact hall n.toNat n.toNat_lt

theorem readOctet_text (n : UInt8) {rest : List Char} (hrest : rest.head?.all fun c => (digitOf 10 c).isNone) :
    readOctet (octetText n ++ rest) = some (n, rest) := by
  obtain ⟨hall, hne, hlength, hzero, hvalue⟩ := octetText_spec n
  have htake : (octetText n ++ rest).takeWhile (fun c => (digitOf 10 c).isSome) = octetText n := by
    rw [List.takeWhile_append_of_pos fun c hc => List.all_eq_true.1 hall c hc]
    rcases rest with _ | ⟨c, rest⟩
    · exact List.append_nil _
    · rw [List.takeWhile_cons_of_neg (by simpa using hrest), List.append_nil]
  have hnot : ¬ (octetText n = [] ∨ 3 < (octetText n).length ∨
      (false = false ∧ (octetText n).head? = some '0' ∧ 1 < (octetText n).length) ∨ 256 ≤ n.toNat) := by
    have hlt := n.toNat_lt
    rintro (h | h | ⟨-, h, h'⟩ | h)
    · exact hne h
    · omega
    · have := hzero h
      omega
    · omega
  rw [readOctet, readNumber, htake, hvalue, if_neg hnot, Option.map_some, UInt8.ofNat_toNat, List.drop_left]

theorem readDotOctet_text (n : UInt8) {rest : List Char} (hrest : rest.head?.all fun c => (digitOf 10 c).isNone) :
    readDotOctet ('.' :: (octetText n ++ rest)) = some (n, rest) :=
  readOctet_text n hrest

theorem parse_text (addr : Ipv4Addr) : parse addr.text = some (v4 addr) := by
  have hdot (rest : List Char) : ('.' :: rest).head?.all (fun c => (digitOf 10 c).isNone) = true := rfl
  have hlast : readDotOctet ('.' :: octetText addr.d) = some (addr.d, []) := by
    have h := readDotOctet_text addr.d (show ([] : List Char).head?.all _ = true from rfl)
    rwa [List.append_nil] at h
  have hread : readIpv4 addr.text.toList = some (addr, []) := by
    rw [readIpv4, Ipv4Addr.text, String.toList_ofList, readOctet_text _ (hdot _), Option.bind_some,
      readDotOctet_text _ (hdot _), Option.bind_some, readDotOctet_text _ (hdot _), Option.bind_some, hlast]
    rfl
  rw [parse, hread]
  rfl

theorem parse_bracket (text : List Char) : parse (String.ofList ('[' :: text)) = none := by
  have hnumber (radix maxDigits bound : ℕ) (zeroPrefix : Bool) :
      readNumber radix maxDigits bound zeroPrefix ('[' :: text) = none := by
    rw [readNumber, List.takeWhile_cons_of_neg (by simp [digitOf]), if_pos (.inl rfl)]
  have hipv4 : readIpv4 ('[' :: text) = none := by
    rw [readIpv4, readOctet, hnumber]
    rfl
  have hgroups : readGroups true 8 ('[' :: text) = ([], false, '[' :: text) := by
    simp [readGroups, hipv4, hnumber]
  have hipv6 : readIpv6 ('[' :: text) = none := by
    rw [readIpv6, hgroups]
    rfl
  rw [parse, String.toList_ofList, hipv4, hipv6]
  rfl

end IpAddr
