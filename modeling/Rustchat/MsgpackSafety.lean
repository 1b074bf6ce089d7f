import Rustchat.Lib.MsgpackUnique
import Rustchat.MsgpackRoundTrip

/-!
# Where a binary frame ends the process

The decoder reserves an array as long as its header says before it reads an item, and calls itself for
every item inside another. `Exhausted` says of an input that one of the two is too much for the machine
on the way through it, in terms of the format alone. At every other input the decoder returns, and what
it takes for an answer is an encoding unless it holds binary data or a key twice.
-/

namespace Rustchat.MsgpackDecode
open Msgpack Msgpack.Item

/-- Read at the front of an input, an array or a map comes to an item of its own in front of the rest. -/
inductive Inner (input rest : List UInt8) : Prop where
  | item (format : LenFormat) (len : Nat) (items : List Item) (hf : len < Kind.arr.limit format)
    (hlen : items.length < len) (hl : ItemsLegal items) (hn : ItemsNarrow items)
    (h : input = Kind.arr.head format len ++ (itemsBytes items ++ rest))
  | key (format : LenFormat) (len : Nat) (entries : List ((LenFormat × String) × Item))
    (hf : len < Kind.map.limit format) (hlen : entries.length < len) (hl : EntriesLegal entries)
    (hn : EntriesNarrow entries) (h : input = Kind.map.head format len ++ (entriesBytes entries ++ rest))
  | value (format : LenFormat) (len : Nat) (entries : List ((LenFormat × String) × Item)) (w : LenFormat) (key : String)
    (hf : len < Kind.map.limit format) (hlen : entries.length < len) (hl : EntriesLegal entries)
    (hn : EntriesNarrow entries) (hk : (Item.str w key).Legal)
    (h : input = Kind.map.head format len ++ (entriesBytes entries ++ (strBytes w key ++ rest)))

/-- The stack or the memory of a machine gives out on the way through an input. -/
inductive Exhausted (machine : Machine) : Nat → List UInt8 → Prop where
  | stack (input : List UInt8) : Exhausted machine 0 input
  | array {stack : Nat} {input : List UInt8} (format : LenFormat) (len : Nat) (rest : List UInt8)
    (hf : len < Kind.arr.limit format) (ha : ¬ machine.allocates len) (h : input = Kind.arr.head format len ++ rest) :
    Exhausted machine (stack + 1) input
  | binary {stack : Nat} {input : List UInt8} (format : LenFormat) (data rest : List UInt8)
    (hf : data.length < Kind.bin.limit format) (ha : ¬ machine.allocates data.length)
    (h : input = Kind.bin.head format data.length ++ (data ++ rest)) : Exhausted machine (stack + 1) input
  | inner {stack : Nat} {input rest : List UInt8} (h : Inner input rest) (hr : Exhausted machine stack rest) :
    Exhausted machine (stack + 1) input

theorem Inner.append {input rest : List UInt8} (h : Inner input rest) (more : List UInt8) :
    Inner (input ++ more) (rest ++ more) := by
  cases h with
  | item format len items hf hlen hl hn h => exact .item format len items hf hlen hl hn (by simp [h])
  | key format len entries hf hlen hl hn h => exact .key format len entries hf hlen hl hn (by simp [h])
  | value format len entries w key hf hlen hl hn hk h =>
    exact .value format len entries w key hf hlen hl hn hk (by simp [h])

section Machines
variable {machine : Machine}

theorem Exhausted.append {stack : Nat} {input : List UInt8} (h : Exhausted machine stack input) (more : List UInt8) :
    Exhausted machine stack (input ++ more) := by
  induction h with
  | stack => exact .stack _
  | array format len rest hf ha h => exact .array format len (rest ++ more) hf ha (by simp [h])
  | binary format data rest hf ha h => exact .binary format data (rest ++ more) hf ha (by simp [h])
  | inner h _ ih => exact .inner (h.append more) ih

theorem exhausted_leaf {m : Item} (hs : m.Narrow) (hd : m.depth = 1) (hg : m.Granted machine.allocates) {stack : Nat}
    (h : ¬ Readable machine stack m) (rest : List UInt8) : Exhausted machine stack (m.bytes ++ rest) := by
  cases stack with
  | zero => exact .stack _
  | succ stack =>
    have hread : Readable machine (stack + 1) m := ⟨hs, by omega, hg⟩
    exact absurd hread h

theorem exhausted_of_not_readable (m : Item) (hl : m.Legal) (hs : m.Narrow) {stack : Nat}
    (h : ¬ Readable machine stack m) (rest : List UInt8) : Exhausted machine stack (m.bytes ++ rest) := by
  induction m using Item.induction generalizing stack rest with
  | nil => exact exhausted_leaf hs rfl trivial h rest
  | bool b => exact exhausted_leaf hs rfl trivial h rest
  | int f n => exact exhausted_leaf hs rfl trivial h rest
  | str w s => exact exhausted_leaf hs rfl trivial h rest
  | bin w data =>
    cases stack with
    | zero => exact .stack _
    | succ stack => exact .binary w data rest hl (fun ha => h (readable_bin.2 ha)) (List.append_assoc ..)
  | arr w items ih =>
    cases stack with
    | zero => exact .stack _
    | succ stack =>
      by_cases ha : machine.allocates items.length
      · have hbad : ∃ m ∈ items, ¬ Readable machine stack m := by
          by_contra hall
          push Not at hall
          exact h (readable_arr.2 ⟨ha, hall⟩)
        obtain ⟨m, hm, hbad⟩ := hbad
        have hml := itemsLegal_iff.1 hl.2
        have hmn := itemsNarrow_iff.1 hs
        obtain ⟨first, last, rfl⟩ := List.append_of_mem hm
        refine .inner (.item w _ first hl.1 (by simp)
          (itemsLegal_iff.2 fun m hm => hml m (List.mem_append_left _ hm))
          (itemsNarrow_iff.2 fun m hm => hmn m (List.mem_append_left _ hm)) ?_)
          (ih m hm (hml m hm) (hmn m hm) hbad (itemsBytes last ++ rest))
        rw [bytes, itemsBytes_append, itemsBytes]
        simp only [List.append_assoc]
      · exact .array w items.length (itemsBytes items ++ rest) hl.1 ha (List.append_assoc ..)
  | map w entries ih =>
    cases stack with
    | zero => exact .stack _
    | succ stack =>
      have hbad : ∃ e ∈ entries, ¬ EntryReadable (Readable machine stack) e := by
        by_contra hall
        push Not at hall
        exact h (readable_map.2 hall)
      obtain ⟨e, he, hbad⟩ := hbad
      have hel := entriesLegal_iff.1 hl.2
      have hen := entriesNarrow_iff.1 hs
      obtain ⟨first, last, rfl⟩ := List.append_of_mem he
      obtain ⟨⟨kw, key⟩, m⟩ := e
      have hlen : first.length < (first ++ ((kw, key), m) :: last).length := by simp
      have hfl : EntriesLegal first := entriesLegal_iff.2 fun e he => hel e (List.mem_append_left _ he)
      have hfn : EntriesNarrow first := entriesNarrow_iff.2 fun e he => hen e (List.mem_append_left _ he)
      by_cases hk : Readable machine stack (.str kw key)
      · refine .inner (.value w _ first kw key hl.1 hlen hfl hfn (hel _ he).1 ?_)
          (ih _ he (hel _ he).2 (hen _ he) (fun hv => hbad ⟨hk, hv⟩) (entriesBytes last ++ rest))
        rw [bytes, entriesBytes_append, entriesBytes]
        simp only [List.append_assoc]
      · obtain rfl : stack = 0 := Nat.eq_zero_of_not_pos fun hpos => hk (readable_str.2 hpos)
        refine .inner (.key w _ first hl.1 hlen hfl hfn ?_) (.stack (entriesBytes (((kw, key), m) :: last) ++ rest))
        rw [bytes, entriesBytes_append]
        simp only [List.append_assoc]

section Halting
variable {bytes : List UInt8} {item : Reader Json}

def ReadsOrHalts (bytes : List UInt8) (item : Reader Json) (m : Item) : Prop :=
  ∀ idx rest, idx ≤ bytes.length → bytes.drop idx = m.bytes ++ rest →
    item idx = .ok (some m.value, idx + m.bytes.length) ∨ ∃ halt, item idx = .error halt

theorem decodeItems_halts {ms : List Item} (hm : ∀ m ∈ ms, ReadsOrHalts bytes item m) {len idx : Nat}
    (hlen : ms.length < len) {rest : List UInt8} (hidx : idx ≤ bytes.length) (h : bytes.drop idx = itemsBytes ms ++ rest)
    (hrest : ∀ j, j ≤ bytes.length → bytes.drop j = rest → ∃ halt, item j = .error halt) :
    ∃ halt, decodeItems item len idx = .error halt := by
  induction ms generalizing len idx with
  | nil =>
    obtain ⟨len, rfl⟩ := Nat.exists_eq_succ_of_ne_zero (Nat.ne_zero_of_lt hlen)
    obtain ⟨halt, hh⟩ := hrest idx hidx h
    exact ⟨halt, Reader.bind_error hh⟩
  | cons m ms ih =>
    obtain ⟨len, rfl⟩ := Nat.exists_eq_succ_of_ne_zero (Nat.ne_zero_of_lt hlen)
    rw [itemsBytes, List.append_assoc] at h
    rcases hm m List.mem_cons_self idx _ hidx h with hread | ⟨halt, hh⟩
    · obtain ⟨halt, hh⟩ := ih (fun m hm' => hm m (List.mem_cons_of_mem _ hm')) (Nat.lt_of_succ_lt_succ hlen)
        (add_length_le hidx h) (drop_of_append h)
      exact ⟨halt, (Reader.bind_some hread).trans (Reader.bind_error hh)⟩
    · exact ⟨halt, Reader.bind_error hh⟩

theorem decodeFields_key {key : String} {len idx j : Nat} (map : List (String × Json))
    (h : item idx = .ok (some (.str key), j)) :
    decodeFields item (len + 1) map idx = (item >>= fun value => decodeFields item len (Json.insertField key value map)) j :=
  Reader.bind_some h

theorem decodeFields_halts {es : List ((LenFormat × String) × Item)}
    (hm : ∀ e ∈ es, ReadsOrHalts bytes item (.str e.1.1 e.1.2) ∧ ReadsOrHalts bytes item e.2) {len idx : Nat}
    (hlen : es.length < len) {rest : List UInt8} (hidx : idx ≤ bytes.length) (h : bytes.drop idx = entriesBytes es ++ rest)
    (hrest : ∀ j len map, j ≤ bytes.length → bytes.drop j = rest → ∃ halt, decodeFields item (len + 1) map j = .error halt)
    (map : List (String × Json)) : ∃ halt, decodeFields item len map idx = .error halt := by
  induction es generalizing len idx map with
  | nil =>
    obtain ⟨len, rfl⟩ := Nat.exists_eq_succ_of_ne_zero (Nat.ne_zero_of_lt hlen)
    exact hrest idx len map hidx h
  | cons e es ih =>
    obtain ⟨len, rfl⟩ := Nat.exists_eq_succ_of_ne_zero (Nat.ne_zero_of_lt hlen)
    obtain ⟨⟨w, key⟩, m⟩ := e
    obtain ⟨hkey, hvalue⟩ := hm _ List.mem_cons_self
    rw [entriesBytes, List.append_assoc, List.append_assoc] at h
    rcases hkey idx _ hidx h with hread | ⟨halt, hh⟩
    · have hidx' := add_length_le hidx h
      have hdrop := drop_of_append h
      rcases hvalue _ _ hidx' hdrop with hread' | ⟨halt, hh⟩
      · obtain ⟨halt, hh⟩ := ih (fun e he => hm e (List.mem_cons_of_mem _ he)) (Nat.lt_of_succ_lt_succ hlen)
          (add_length_le hidx' hdrop) (drop_of_append hdrop) (Json.insertField key m.value map)
        exact ⟨halt, (decodeFields_key map hread).trans ((Reader.bind_some hread').trans hh)⟩
      · exact ⟨halt, (decodeFields_key map hread).trans (Reader.bind_error hh)⟩
    · exact ⟨halt, Reader.bind_error hh⟩

variable (hn : bytes.length ≤ isizeMax)
include hn

omit hn in
theorem le_of_drop_head {kind : Kind} {format : LenFormat} {len idx : Nat} {e : List UInt8}
    (h : bytes.drop idx = kind.head format len ++ e) : idx ≤ bytes.length := by
  by_contra hlt
  rw [List.drop_eq_nil_of_le (by omega)] at h
  cases hf : format.size with
  | none => rw [Kind.head, hf] at h; cases h
  | some size => rw [Kind.head_sized hf] at h; cases h

theorem halts_of_exhausted {stack idx : Nat} (h : Exhausted machine stack (bytes.drop idx)) :
    ∃ halt, decodeMsgpackAt machine bytes stack idx = .error halt := by
  induction stack generalizing idx with
  | zero => exact ⟨.stack, rfl⟩
  | succ stack ih =>
    have reads (m : Item) (hl : m.Legal) (hs : m.Narrow) : ReadsOrHalts bytes (decodeMsgpackAt machine bytes stack) m := by
      intro j rest hj hd
      by_cases hr : Readable machine stack m
      · exact .inl ((reads_decodeMsgpackAt hn m hl stack).yields hr j rest hj hd)
      · exact .inr (ih (hd ▸ exhausted_of_not_readable m hl hs hr rest))
    cases h with
    | array format len rest hf ha h =>
      rw [decodeMsgpackAt_head hn hf (le_of_drop_head h) h]
      exact ⟨.memory, Reader.bind_error (if_neg ha)⟩
    | binary format data rest hf ha h =>
      have hidx := le_of_drop_head h
      rw [decodeMsgpackAt_head hn hf hidx h]
      have hread := yields_readExact hn (rfl : data.length = data.length) _ rest (add_length_le hidx h) (drop_of_append h)
      exact ⟨.memory, (Reader.bind_some hread).trans (Reader.bind_error (if_neg ha))⟩
    | @inner _ _ rest h hr =>
      cases h with
      | item format len items hf hlen hl hs h =>
        have hidx := le_of_drop_head h
        rw [decodeMsgpackAt_head hn hf hidx h]
        by_cases ha : machine.allocates len
        · obtain ⟨halt, hh⟩ := decodeItems_halts
            (fun m hm => reads m (itemsLegal_iff.1 hl m hm) (itemsNarrow_iff.1 hs m hm)) hlen
            (add_length_le hidx h) (drop_of_append h) (fun j _ hd => ih (hd ▸ hr))
          have hcap : withCapacity machine len _ = .ok (some (), idx + (Kind.arr.head format len).length) := if_pos ha
          exact ⟨halt, (Reader.bind_some hcap).trans (Reader.bind_error hh)⟩
        · exact ⟨.memory, Reader.bind_error (if_neg ha)⟩
      | key format len entries hf hlen hl hs h =>
        have hidx := le_of_drop_head h
        rw [decodeMsgpackAt_head hn hf hidx h]
        obtain ⟨halt, hh⟩ := decodeFields_halts
          (fun e he => ⟨reads _ (entriesLegal_iff.1 hl e he).1 trivial,
            reads _ (entriesLegal_iff.1 hl e he).2 (entriesNarrow_iff.1 hs e he)⟩) hlen
          (add_length_le hidx h) (drop_of_append h)
          (fun j len map _ hd => (ih (hd ▸ hr)).imp fun _ hh => Reader.bind_error hh) []
        exact ⟨halt, Reader.bind_error hh⟩
      | value format len entries w key hf hlen hl hs hk h =>
        have hidx := le_of_drop_head h
        rw [decodeMsgpackAt_head hn hf hidx h]
        have hvalue (j len : Nat) (map : List (String × Json)) (hj : j ≤ bytes.length)
            (hd : bytes.drop j = strBytes w key ++ rest) :
            ∃ halt, decodeFields (decodeMsgpackAt machine bytes stack) (len + 1) map j = .error halt := by
          rcases reads (.str w key) hk trivial j rest hj hd with hread | ⟨halt, hh⟩
          · obtain ⟨halt, hh⟩ := ih ((drop_of_append hd).symm ▸ hr)
            exact ⟨halt, (decodeFields_key map hread).trans (Reader.bind_error hh)⟩
          · exact ⟨halt, Reader.bind_error hh⟩
        obtain ⟨halt, hh⟩ := decodeFields_halts
          (fun e he => ⟨reads _ (entriesLegal_iff.1 hl e he).1 trivial,
            reads _ (entriesLegal_iff.1 hl e he).2 (entriesNarrow_iff.1 hs e he)⟩) hlen
          (add_length_le hidx h) (drop_of_append h) hvalue []
        exact ⟨halt, Reader.bind_error hh⟩

end Halting

/-! ### Nothing else ends the process -/

section Calm
variable {α β : Type} {x : Reader α} {f : α → Reader β}

/-- A reader that never ends the process. -/
def Returns (x : Reader α) : Prop := ∀ idx halt, x idx ≠ .error halt

theorem Returns.pure (a : α) : Returns (pure a : Reader α) := nofun

theorem Returns.ofOption (o : Option α) : Returns (Reader.ofOption o) := by
  cases o with
  | none => exact nofun
  | some a => exact .pure a

theorem Returns.bind (hx : Returns x) (hf : ∀ a, Returns (f a)) : Returns (x >>= f) := by
  intro idx halt h
  rcases Reader.bind_eq_error h with h | ⟨a, j, -, h⟩
  · exact hx idx halt h
  · exact hf a j halt h

variable {bytes : List UInt8}

theorem returns_readU8 (hn : bytes.length ≤ isizeMax) : Returns (readU8 bytes) := by
  intro idx halt h
  rw [readU8_eq hn] at h
  split at h <;> cases h

theorem returns_readExact (len : Nat) : Returns (readExact bytes len) := by
  intro idx halt h
  simp only [readExact] at h
  split_ifs at h

theorem returns_readUnsigned (hn : bytes.length ≤ isizeMax) (size : Size) : Returns (readUnsigned bytes size) := by
  cases size with
  | b1 => exact (returns_readU8 hn).bind fun _ => .pure _
  | b2 => exact (returns_readExact 2).bind fun _ => .pure _
  | b4 => exact (returns_readExact 4).bind fun _ => .pure _
  | b8 => exact .ofOption none

theorem returns_decodeStr (len : Nat) : Returns (decodeStr bytes len) :=
  (returns_readExact len).bind fun _ => (Returns.ofOption _).bind fun _ => .pure _

end Calm

section Errors
variable {bytes : List UInt8} {item : Reader Json}

theorem ofOption_eq_some {α : Type} {o : Option α} {a : α} {idx j : Nat} (h : Reader.ofOption o idx = .ok (some a, j)) :
    o = some a ∧ j = idx := by
  cases o with
  | none => cases h
  | some b => cases h; exact ⟨rfl, rfl⟩

theorem withCapacity_eq_some {len idx j : Nat} {u : Unit} (h : withCapacity machine len idx = .ok (some u, j)) :
    j = idx := by
  rw [withCapacity] at h
  split_ifs at h
  cases h
  rfl

theorem not_allocates_of_error {len idx : Nat} {halt : Halt} (h : withCapacity machine len idx = .error halt) :
    ¬ machine.allocates len := by
  intro ha
  rw [withCapacity, if_pos ha] at h
  cases h

theorem error_decodeItems (ht : Takes bytes item ItemOf) {len idx : Nat} {halt : Halt}
    (h : decodeItems item len idx = .error halt) :
    ∃ ms j, ms.length < len ∧ ItemsLegal ms ∧ ItemsNarrow ms ∧ bytes.drop idx = itemsBytes ms ++ bytes.drop j ∧
      item j = .error halt := by
  induction len generalizing idx with
  | zero => cases h
  | succ len ih =>
    rcases Reader.bind_eq_error h with h | ⟨v, j, hv, h⟩
    · exact ⟨[], idx, Nat.succ_pos len, trivial, trivial, rfl, h⟩
    · obtain ⟨_, he, -, m, hl, hs, -, rfl⟩ := ht idx v j hv
      rcases Reader.bind_eq_error h with h | ⟨_, _, -, h⟩
      · obtain ⟨ms, k, hlen, hls, hss, hd, hk⟩ := ih h
        exact ⟨m :: ms, k, Nat.succ_lt_succ hlen, ⟨hl, hls⟩, ⟨hs, hss⟩, by rw [itemsBytes, List.append_assoc, ← hd, he], hk⟩
      · cases h

theorem error_decodeFields (ht : Takes bytes item ItemOf) {len idx : Nat} {map : List (String × Json)} {halt : Halt}
    (h : decodeFields item len map idx = .error halt) :
    ∃ es j, es.length < len ∧ EntriesLegal es ∧ EntriesNarrow es ∧ item j = .error halt ∧
      (bytes.drop idx = entriesBytes es ++ bytes.drop j ∨
        ∃ w key, (Item.str w key).Legal ∧ bytes.drop idx = entriesBytes es ++ (strBytes w key ++ bytes.drop j)) := by
  induction len generalizing idx map with
  | zero => cases h
  | succ len ih =>
    rcases Reader.bind_eq_error h with h | ⟨v, j, hv, hbehind⟩
    · exact ⟨[], idx, Nat.succ_pos len, trivial, trivial, h, .inl rfl⟩
    obtain ⟨_, he, -, k, hl, -, rfl, rfl⟩ := ht idx v j hv
    rcases Reader.bind_eq_error hbehind with h | ⟨key, j', hkey, hvalue⟩
    · exact absurd h (Returns.ofOption _ _ _)
    obtain ⟨hstr, rfl⟩ := ofOption_eq_some hkey
    obtain ⟨w, rfl⟩ := str_of_value hstr
    rcases Reader.bind_eq_error hvalue with h | ⟨v, k, hv', hfields⟩
    · exact ⟨[], j', Nat.succ_pos len, trivial, trivial, h, .inr ⟨w, key, hl, he⟩⟩
    obtain ⟨_, he', -, m, hml, hms, -, rfl⟩ := ht j' v k hv'
    have hentry : bytes.drop idx = strBytes w key ++ (m.bytes ++ bytes.drop k) := he.trans (congrArg _ he')
    obtain ⟨es, l, hlen, hls, hss, herr, hd⟩ := ih hfields
    refine ⟨((w, key), m) :: es, l, Nat.succ_lt_succ hlen, ⟨hl, hml, hls⟩, ⟨hms, hss⟩, herr, hd.imp (fun hd => ?_) ?_⟩
    · rw [hentry, hd, entriesBytes, List.append_assoc, List.append_assoc]
    · rintro ⟨w', key', hk', hd⟩
      exact ⟨w', key', hk', by rw [hentry, hd, entriesBytes, List.append_assoc, List.append_assoc]⟩

theorem exhausted_of_body (ht : Takes bytes item ItemOf) {stack : Nat}
    (hi : ∀ j halt, item j = .error halt → Exhausted machine stack (bytes.drop j)) {kind : Kind} {format : LenFormat}
    {len idx : Nat} {halt : Halt} (hf : len < kind.limit format) (h : decodeBody machine bytes item kind len idx = .error halt)
    {input : List UInt8} (he : input = kind.head format len ++ bytes.drop idx) : Exhausted machine (stack + 1) input := by
  cases kind with
  | str => exact absurd h (returns_decodeStr len idx halt)
  | bin =>
    rcases Reader.bind_eq_error h with h | ⟨data, j, hread, hbehind⟩
    · exact absurd h (returns_readExact len idx halt)
    obtain ⟨_, hd, -, rfl, rfl⟩ := takes_readExact len idx data j hread
    rcases Reader.bind_eq_error hbehind with h | ⟨_, _, -, h⟩
    · exact .binary format data (bytes.drop j) hf (not_allocates_of_error h) (he.trans (congrArg _ hd))
    · cases h
  | arr =>
    rcases Reader.bind_eq_error h with h | ⟨_, j, hcap, hbehind⟩
    · exact .array format len (bytes.drop idx) hf (not_allocates_of_error h) he
    obtain rfl := withCapacity_eq_some hcap
    rcases Reader.bind_eq_error hbehind with h | ⟨_, _, -, h⟩
    · obtain ⟨ms, k, hlen, hl, hs, hd, hk⟩ := error_decodeItems ht h
      exact .inner (.item format len ms hf hlen hl hs (he.trans (congrArg _ hd))) (hi k halt hk)
    · cases h
  | map =>
    rcases Reader.bind_eq_error h with h | ⟨_, _, -, h⟩
    · obtain ⟨es, k, hlen, hl, hs, hk, hd | ⟨w, key, hkey, hd⟩⟩ := error_decodeFields ht h
      · exact .inner (.key format len es hf hlen hl hs (he.trans (congrArg _ hd))) (hi k halt hk)
      · exact .inner (.value format len es w key hf hlen hl hs hkey (he.trans (congrArg _ hd))) (hi k halt hk)
    · cases h

theorem exhausted_of_error (hn : bytes.length ≤ isizeMax) {stack idx : Nat} {halt : Halt}
    (h : decodeMsgpackAt machine bytes stack idx = .error halt) : Exhausted machine stack (bytes.drop idx) := by
  induction stack generalizing idx halt with
  | zero => exact .stack _
  | succ stack ih =>
    rcases Reader.bind_eq_error h with h | ⟨b, j, hb, h⟩
    · exact absurd h (returns_readU8 hn idx halt)
    obtain ⟨_, hd, -, rfl⟩ := takes_readU8 hn idx b j hb
    have ht : Takes bytes (decodeMsgpackAt machine bytes stack) ItemOf := takes_decodeMsgpackAt hn stack
    have hbody (j : Nat) (halt : Halt) (h : decodeMsgpackAt machine bytes stack j = .error halt) :=
      ih h
    generalize hx : decodeMarked machine bytes (decodeMsgpackAt machine bytes stack) b.toNat = x at h
    generalize hm : b.toNat = marker at hx
    have hbr : Branch machine bytes (decodeMsgpackAt machine bytes stack) marker x := hx ▸ decodeMarked_branch marker
    have hfirst : [b] = [UInt8.ofNat marker] := by rw [← hm, UInt8.ofNat_toNat]
    rw [hd, hfirst]
    cases hbr with
    | posFix | negFix | nil | bool => cases h
    | unsigned size => exact absurd h ((returns_readUnsigned hn size).bind (fun _ => .pure _) j halt)
    | signed size =>
      rw [readSigned_eq] at h
      exact absurd h (((returns_readUnsigned hn size).bind fun _ => .pure _).bind (fun _ => .pure _) j halt)
    | fix kind len hf => exact exhausted_of_body ht hbody hf h (show _ = kind.head .fix len ++ _ from rfl)
    | sized kind format size hf hpos =>
      rcases Reader.bind_eq_error h with h | ⟨len, k, hlen, h⟩
      · exact absurd h (returns_readUnsigned hn size j halt)
      obtain ⟨_, hd', -, rfl, hlt⟩ := takes_readUnsigned hn j len k hlen
      refine exhausted_of_body ht hbody (Kind.limit_eq hf hpos ▸ hlt) h ?_
      rw [Kind.head_sized hf, hd']
      rfl
    | other => cases h

end Errors

/-! ### Safety -/

/-- The decoder returns with an index inside the input, takes only an encoding of its answer, and has no
answer at a beginning of one. -/
def Sound (machine : Machine) (bytes : List UInt8) (idx : Nat) : Prop :=
  ∃ r j, decode machine bytes idx = .ok (r, j) ∧ (idx ≤ bytes.length → idx ≤ j ∧ j ≤ bytes.length) ∧
    (bytes.length < idx → r = none ∧ j = idx) ∧
    ∀ v, r = some v → ∃ m : Item, m.Encodes v ∧ (bytes.drop idx).take (j - idx) = m.bytes ∧
      ∀ k < j - idx, ∃ j', decode machine ((bytes.drop idx).take k) 0 = .ok (none, j')

theorem decode_past {bytes : List UInt8} {idx : Nat} (h : bytes.length ≤ idx) {r : Option Json} {j : Nat}
    (hr : decode machine bytes idx = .ok (r, j)) : r = none ∧ j = idx := by
  rw [decode] at hr
  cases hs : machine.stack with
  | zero => rw [hs] at hr; cases hr
  | succ stack =>
    have hb : readU8 bytes idx = .ok (none, idx) := by rw [readU8, List.getElem?_eq_none h]
    have hnone : decodeMsgpackAt machine bytes (stack + 1) idx = .ok (none, idx) := Reader.bind_none hb
    rw [hs, hnone] at hr
    cases hr
    exact ⟨rfl, rfl⟩

theorem decode_prefix {m : Item} (hl : m.Legal) (he : ¬ Exhausted machine machine.stack m.bytes)
    (hn : m.bytes.length ≤ isizeMax) {k : Nat} (hk : k < m.bytes.length) :
    ∃ j, decode machine (m.bytes.take k) 0 = .ok (none, j) := by
  have hlen : (m.bytes.take k).length = k := by rw [List.length_take]; omega
  cases h : decode machine (m.bytes.take k) 0 with
  | error halt =>
    have hpart := exhausted_of_error (by omega) h
    rw [List.drop_zero] at hpart
    exact absurd (List.take_append_drop k m.bytes ▸ hpart.append (m.bytes.drop k)) he
  | ok out =>
    obtain ⟨_ | v, j⟩ := out
    · exact ⟨j, rfl⟩
    · obtain ⟨m', hl', -, -, hdrop, -⟩ := item_of_decode (by omega) h
      -- the item read from the beginning would be the whole item
      have hwhole : m.bytes ++ [] = m'.bytes ++ ((m.bytes.take k).drop j ++ m.bytes.drop k) := by
        rw [← List.append_assoc, ← hdrop, List.drop_zero, List.take_append_drop, List.append_nil]
      obtain ⟨rfl, hrest⟩ := bytes_append_inj m hl m' _ _ hl' hwhole
      have hend := congrArg List.length hrest
      simp only [List.length_nil, List.length_append, List.length_drop] at hend
      omega

/-- The decoder is sound exactly where the machine lasts and an item in front of the input is plain. -/
theorem decode_sound_iff (bytes : List UInt8) (hn : bytes.length ≤ isizeMax) (idx : Nat) :
    Sound machine bytes idx ↔
      ¬ Exhausted machine machine.stack (bytes.drop idx) ∧
        ∀ (m : Item) (rest : List UInt8), m.Legal → m.Narrow → bytes.drop idx = m.bytes ++ rest → m.Plain := by
  constructor
  · rintro ⟨r, j, hr, -, -, henc⟩
    have he : ¬ Exhausted machine machine.stack (bytes.drop idx) := fun h => by
      obtain ⟨halt, hh⟩ := halts_of_exhausted hn h
      have hsame := hr.symm.trans hh
      cases hsame
    refine ⟨he, fun m rest hl hs hd => ?_⟩
    have hidx : idx ≤ bytes.length := by
      by_contra hlt
      have hlead := leadOf_bytes hl rest
      rw [← hd, List.drop_eq_nil_of_le (by omega)] at hlead
      cases hlead
    have hread : Readable machine machine.stack m := by
      by_contra hread
      exact he (hd ▸ exhausted_of_not_readable m hl hs hread rest)
    have hval := (reads_decode hn hl).yields hread idx rest hidx hd
    obtain ⟨rfl, rfl⟩ := Prod.mk.inj (Except.ok.inj (hr.symm.trans hval))
    obtain ⟨m', henc, htake, -⟩ := henc m.value rfl
    rw [Nat.add_sub_cancel_left, hd, List.take_left] at htake
    obtain ⟨rfl, -⟩ := bytes_append_inj m hl m' [] [] (legal_of_encodes m' _ henc).1 (by rw [htake])
    exact (encodes_value_iff m hl).1 henc
  · rintro ⟨he, hp⟩
    cases hr : decode machine bytes idx with
    | error halt => exact absurd (exhausted_of_error hn hr) he
    | ok out =>
      obtain ⟨r, j⟩ := out
      refine ⟨r, j, hr, fun hidx => tame_decodeMsgpackAt hn machine.stack idx r j hidx hr,
        fun hlt => decode_past (Nat.le_of_lt hlt) hr, ?_⟩
      rintro v rfl
      obtain ⟨m, hl, hs, rfl, hdrop, rfl⟩ := item_of_decode hn hr
      have hlen : m.bytes.length ≤ isizeMax := by
        have hlen := congrArg List.length hdrop
        rw [List.length_append, List.length_drop, List.length_drop] at hlen
        omega
      refine ⟨m, (encodes_value_iff m hl).2 (hp m _ hl hs hdrop), ?_, fun k hk => ?_⟩
      · rw [Nat.add_sub_cancel_left, hdrop, List.take_left]
      · rw [Nat.add_sub_cancel_left] at hk
        rw [hdrop, List.take_append_of_le_length (Nat.le_of_lt hk)]
        exact decode_prefix hl (fun h => he (hdrop ▸ h.append _)) hlen hk

end Machines

def twoItems : Item := .arr .fix [.int .posFix 1, .nil]

theorem decode_two_items : Sound smallMachine [0x92, 0x01, 0xc0] 0 := by
  have hn : ([0x92, 0x01, 0xc0] : List UInt8).length ≤ isizeMax := by decide
  have hl : twoItems.Legal := ⟨by decide, ⟨by decide, by decide⟩, trivial, trivial⟩
  have hr : Readable smallMachine smallMachine.stack twoItems :=
    ⟨⟨⟨nofun, nofun⟩, trivial, trivial⟩, by decide, by decide, trivial, trivial, trivial⟩
  refine (decode_sound_iff [0x92, 0x01, 0xc0] hn 0).2 ⟨fun h => ?_, fun m rest hml _ hd => ?_⟩
  · obtain ⟨halt, hh⟩ := halts_of_exhausted hn h
    have hsame := (decode_item hl hr [] hn).symm.trans hh
    cases hsame
  · obtain ⟨rfl, -⟩ := bytes_append_inj twoItems hl m [] rest hml hd
    exact ⟨trivial, trivial, trivial⟩

/-- Five bytes ask for room for `2 ^ 32 - 1` values. -/
theorem array_header_aborts :
    ¬ ∀ (machine : Machine) (bytes : List UInt8), bytes.length ≤ isizeMax → ∀ idx, Sound machine bytes idx := by
  intro h
  obtain ⟨r, j, hr, -⟩ := h smallMachine [0xdd, 0xff, 0xff, 0xff, 0xff] (by decide) 0
  have he : Exhausted smallMachine 1000 ([0xdd, 0xff, 0xff, 0xff, 0xff].drop 0) :=
    .array .w32 (2 ^ 32 - 1) [] (by decide) (by decide) (by decide)
  obtain ⟨halt, hh⟩ := halts_of_exhausted (by decide) he
  have hsame := hr.symm.trans hh
  cases hsame

end Rustchat.MsgpackDecode
