import Mathlib.Data.List.DropRight

/-!
# Where a path leads in a browser

The URL parser of the URL standard, as far as it decides the host and the port of a reference that begins with a slash.
The base has a special scheme other than `file`, so that a backslash counts as a slash, and a reference without an
authority keeps the base's host and port. Leading and trailing control characters and blanks, and all tabs and newlines,
are taken away first. The host parser is a parameter.
-/

namespace WebUrl

structure Origin (η : Type*) where
  host : η
  port : Option ℕ
deriving DecidableEq

structure Base (η : Type*) where
  origin : Origin η
  defaultPort : ℕ

def isC0OrSpace (c : Char) : Bool := c.toNat ≤ 0x20

def isTabOrNewline (c : Char) : Bool := c = '\t' || c = '\n' || c = '\r'

def isSlash (c : Char) : Bool := c = '/' || c = '\\'

def endsAuthority (c : Char) : Bool := isSlash c || c = '?' || c = '#'

def clean (input : List Char) : List Char :=
  ((input.dropWhile isC0OrSpace).rdropWhile isC0OrSpace).filter fun c => !isTabOrNewline c

variable {η : Type*} (parseHost : List Char → Option η) (base : Base η)

/-- The port state; `none` is a failure. -/
def portState (buffer : List Char) : List Char → Option (Option ℕ)
  | [] =>
    if buffer = [] then some none
    else
      let port := buffer.foldl (fun n c => 10 * n + (c.toNat - '0'.toNat)) 0
      if 65535 < port then none else some (if port = base.defaultPort then none else some port)
  | c :: s => if c.isDigit then portState (buffer ++ [c]) s else none

def hostState (insideBrackets : Bool) (buffer : List Char) : List Char → Option (Origin η)
  | [] => if buffer = [] then none else (parseHost buffer).map fun host => ⟨host, none⟩
  | c :: s =>
    if c = ':' ∧ insideBrackets = false then
      if buffer = [] then none
      else (parseHost buffer).bind fun host => (portState base [] s).map fun port => ⟨host, port⟩
    else hostState (if c = '[' then true else if c = ']' then false else insideBrackets) (buffer ++ [c]) s

/-- The authority state: everything up to an `@` is credentials. -/
def authorityState (atSignSeen : Bool) (buffer : List Char) : List Char → Option (Origin η)
  | [] => if atSignSeen ∧ buffer = [] then none else hostState parseHost base false [] buffer
  | c :: s =>
    if c = '@' then authorityState true [] s
    else if endsAuthority c then
      if atSignSeen ∧ buffer = [] then none else hostState parseHost base false [] buffer
    else authorityState atSignSeen (buffer ++ [c]) s

def ignoreSlashes : List Char → Option (Origin η)
  | [] => authorityState parseHost base false [] []
  | c :: s => if isSlash c then ignoreSlashes s else authorityState parseHost base false [] (c :: s)

def relativeSlash : List Char → Option (Origin η)
  | [] => some base.origin
  | c :: s => if isSlash c then ignoreSlashes parseHost base s else some base.origin

/-- The origin to which a reference that begins with a slash leads, if it is a URL. -/
def rooted (input : List Char) : Option (Origin η) :=
  match clean input with
  | [] => some base.origin
  | c :: s => if isSlash c then relativeSlash parseHost base s else some base.origin

/-! ### Authorities -/

def hostPart (authority : List Char) : List Char := authority.rtakeWhile (· ≠ '@')

def named (authority : List Char) : Option (Origin η) :=
  if '@' ∈ authority ∧ hostPart authority = [] then none else hostState parseHost base false [] (hostPart authority)

/-- The authority of what follows a slash, if another slash follows. -/
def authority (s : List Char) : Option (List Char) :=
  if s.head?.any isSlash then some ((s.dropWhile isSlash).takeWhile fun c => !endsAuthority c) else none

section Lists

variable {α : Type*} {p : α → Bool} {x : α} {l m : List α}

theorem rtakeWhile_append_cons (hx : p x = false) : (l ++ x :: m).rtakeWhile p = m.rtakeWhile p := by
  induction m using List.reverseRecOn with
  | nil =>
    rw [List.rtakeWhile_concat_neg p l x (by simp [hx]), List.rtakeWhile_nil]
  | append_singleton m y ih =>
    rw [← List.cons_append, ← List.append_assoc, List.rtakeWhile_concat, List.rtakeWhile_concat, ih]

theorem rdropWhile_cons (hx : p x = false) : (x :: l).rdropWhile p = x :: l.rdropWhile p := by
  induction l using List.reverseRecOn with
  | nil => simp [List.rdropWhile_singleton, hx]
  | append_singleton l y ih =>
    rw [← List.cons_append, List.rdropWhile_concat, List.rdropWhile_concat, ih]
    split <;> simp

end Lists

variable {parseHost base}

theorem hostPart_of_notMem {a : List Char} (h : '@' ∉ a) : hostPart a = a := by
  refine List.rtakeWhile_eq_self_iff.2 fun c hc => ?_
  simpa using fun heq : c = '@' => h (heq ▸ hc)

/-- The authority state reads up to the end of the authority, and puts back what is behind the last `@`. -/
theorem authorityState_eq {seen : Bool} {buffer s a : List Char} (hbuffer : '@' ∉ buffer)
    (ha : s.takeWhile (fun c => !endsAuthority c) = a) :
    authorityState parseHost base seen buffer s =
      if (seen = true ∨ '@' ∈ a) ∧ hostPart (buffer ++ a) = [] then none
      else hostState parseHost base false [] (hostPart (buffer ++ a)) := by
  induction s generalizing seen buffer a with
  | nil =>
    obtain rfl : a = [] := ha.symm
    rw [authorityState, List.append_nil, hostPart_of_notMem hbuffer]
    simp
  | cons c s ih =>
    rw [authorityState]
    by_cases hat : c = '@'
    · subst hat
      have hends : endsAuthority '@' = false := by decide
      rw [List.takeWhile_cons_of_pos (by simp [hends])] at ha
      subst ha
      rw [if_pos rfl, ih List.not_mem_nil rfl, List.nil_append]
      have hpart : hostPart (buffer ++ '@' :: s.takeWhile fun c => !endsAuthority c) =
          hostPart (s.takeWhile fun c => !endsAuthority c) := rtakeWhile_append_cons (by simp)
      rw [hpart]
      simp
    · rw [if_neg hat]
      split
      · rename_i hends
        rw [List.takeWhile_cons_of_neg (by simp [hends])] at ha
        obtain rfl : a = [] := ha.symm
        rw [List.append_nil, hostPart_of_notMem hbuffer]
        simp
      · rename_i hends
        rw [List.takeWhile_cons_of_pos (by simp [hends])] at ha
        subst ha
        have hbuffer' : '@' ∉ buffer ++ [c] := by
          simp [hbuffer, Ne.symm hat]
        rw [ih hbuffer' rfl, List.append_assoc, List.singleton_append]
        simp only [List.mem_cons, Ne.symm hat, false_or]

theorem ignoreSlashes_eq (s : List Char) :
    ignoreSlashes parseHost base s = named parseHost base ((s.dropWhile isSlash).takeWhile fun c => !endsAuthority c) := by
  have hstate : ∀ s, authorityState parseHost base false [] s =
      named parseHost base (s.takeWhile fun c => !endsAuthority c) := by
    intro s
    rw [authorityState_eq List.not_mem_nil rfl, List.nil_append, named]
    simp
  induction s with
  | nil => exact hstate []
  | cons c s ih =>
    rw [ignoreSlashes]
    split
    · rename_i hc
      rw [List.dropWhile_cons_of_pos hc, ih]
    · rename_i hc
      rw [List.dropWhile_cons_of_neg hc, hstate]

theorem relativeSlash_eq (s : List Char) :
    relativeSlash parseHost base s = (authority s).elim (some base.origin) (named parseHost base) := by
  cases s with
  | nil => rfl
  | cons c s =>
    rw [relativeSlash, authority, ignoreSlashes_eq]
    by_cases hc : isSlash c
    · simp [hc]
    · simp [hc]

theorem clean_cons {c : Char} (hblank : isC0OrSpace c = false) (hnewline : isTabOrNewline c = false) (s : List Char) :
    clean (c :: s) = c :: (s.rdropWhile isC0OrSpace).filter fun c => !isTabOrNewline c := by
  rw [clean, List.dropWhile_cons_of_neg (by simp [hblank]), rdropWhile_cons hblank,
    List.filter_cons_of_pos (by simp [hnewline])]

end WebUrl
