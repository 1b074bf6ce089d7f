import Rustchat.Lib.Json

/-!
# Readers of JSON with limits

A reader that calls itself for every value inside another one goes down to a limit, and one that keeps numbers in
machine words reads an integer of at most 64 bits as it is and every other number as the nearest `f64` it finds, which is
shown as a number with a fraction or an exponent again. `Json.read_render` says what becomes of a document that is
written and read.
-/

namespace Json

-- what is made of the characters of a number that is no integer of 64 bits
variable (double : List Char → Option Fraction)

mutual
/-- How many arrays and objects a value stands in, at most, itself included. -/
def nesting : Json → Nat
  | arr items => itemsNesting items + 1
  | obj fields => fieldsNesting fields + 1
  | _ => 0

def itemsNesting : List Json → Nat
  | [] => 0
  | v :: items => max v.nesting (itemsNesting items)

def fieldsNesting : List (String × Json) → Nat
  | [] => 0
  | (_, v) :: fields => max v.nesting (fieldsNesting fields)
end

/-- A `u64` or an `i64`. -/
def IsWord (n : Int) : Prop := -2 ^ 63 ≤ n ∧ n < 2 ^ 64

instance (n : Int) : Decidable (IsWord n) := inferInstanceAs (Decidable (_ ∧ _))

mutual
def reread : Json → Option Json
  | num n => if IsWord n then some (num n) else (double (renderInt n)).map frac
  | frac f => (double (renderFraction f)).map frac
  | arr items => (rereadItems items).map arr
  | obj fields => (rereadFields fields).map obj
  | v => some v

def rereadItems : List Json → Option (List Json)
  | [] => some []
  | v :: items => do
    let v ← reread v
    let items ← rereadItems items
    some (v :: items)

def rereadFields : List (String × Json) → Option (List (String × Json))
  | [] => some []
  | (key, v) :: fields => do
    let v ← reread v
    let fields ← rereadFields fields
    some ((key, v) :: fields)
end

/-- Values inside of `limit` others are refused. -/
def read (limit : Nat) (text : String) : Option Json :=
  (parse text).bind fun v => if v.nesting < limit then v.reread double else none

theorem read_render (limit : Nat) (v : Json) :
    read double limit v.render = if v.nesting < limit then v.reread double else none := by
  rw [read, parse_render, Option.bind_some]

mutual
def numbers : Json → List Json
  | num n => [num n]
  | frac f => [frac f]
  | arr items => itemsNumbers items
  | obj fields => fieldsNumbers fields
  | _ => []

def itemsNumbers : List Json → List Json
  | [] => []
  | v :: items => v.numbers ++ itemsNumbers items

def fieldsNumbers : List (String × Json) → List Json
  | [] => []
  | (_, v) :: fields => v.numbers ++ fieldsNumbers fields
end

/-- The number is read as it is. -/
def Kept : Json → Prop
  | num n => IsWord n
  | frac f => double (renderFraction f) = some f
  | _ => True

variable {double}

mutual
theorem reread_eq_self_iff : ∀ v : Json, v.reread double = some v ↔ ∀ x ∈ v.numbers, Kept double x
  | null | bool _ | str _ => by simp [reread, numbers]
  | num n => by
    rw [reread, numbers, List.forall_mem_singleton, Kept]
    split_ifs with hn
    · simp [hn]
    · simp [hn]
  | frac f => by simp [reread, numbers, Kept]
  | arr items => by
    rw [reread, numbers, ← rereadItems_eq_self_iff items]
    simp
  | obj fields => by
    rw [reread, numbers, ← rereadFields_eq_self_iff fields]
    simp

theorem rereadItems_eq_self_iff : ∀ items : List Json,
    rereadItems double items = some items ↔ ∀ x ∈ itemsNumbers items, Kept double x
  | [] => by simp [rereadItems, itemsNumbers]
  | v :: items => by
    rw [itemsNumbers, List.forall_mem_append, ← reread_eq_self_iff v, ← rereadItems_eq_self_iff items, rereadItems]
    simp [Option.bind_eq_some_iff]

theorem rereadFields_eq_self_iff : ∀ fields : List (String × Json),
    rereadFields double fields = some fields ↔ ∀ x ∈ fieldsNumbers fields, Kept double x
  | [] => by simp [rereadFields, fieldsNumbers]
  | (key, v) :: fields => by
    rw [fieldsNumbers, List.forall_mem_append, ← reread_eq_self_iff v, ← rereadFields_eq_self_iff fields, rereadFields]
    simp [Option.bind_eq_some_iff]
end

end Json
