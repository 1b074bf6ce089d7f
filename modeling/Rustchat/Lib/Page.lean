import Mathlib.Data.List.Sort

/-!
# Pages of a sorted query

`orderBy key rows` is what `ORDER BY` answers, `page key n rows` what it answers with a `LIMIT`. With a key that
tells the rows apart, a row is on the page exactly if fewer than `n` rows come before it (`mem_page_iff`).

A reader who takes one page after another asks for the rows that are `beyond` the last one it has. The pages make up
the list exactly if at the end of every page the rows that are left are the rows beyond (`perm_walk_iff`). A reader
who is given a cursor with each page walks in the same way (`perm_follow_iff`).
-/

namespace Page

variable {α β : Type*} [LinearOrder β] {key : α → β} {x : α} {n : ℕ} {rows : List α}

def orderBy (key : α → β) (rows : List α) : List α := rows.insertionSort fun a b => key a ≤ key b

def page (key : α → β) (n : ℕ) (rows : List α) : List α := (orderBy key rows).take n

/-- How many rows come before one with the key `k`. -/
def rank (key : α → β) (k : β) (rows : List α) : ℕ := rows.countP fun a => key a < k

theorem orderBy_perm : (orderBy key rows).Perm rows := List.perm_insertionSort _ _

theorem mem_of_head?_orderBy (h : (orderBy key rows).head? = some x) : x ∈ rows :=
  orderBy_perm.mem_iff.1 (List.mem_of_mem_head? h)

theorem head?_orderBy_eq_none : (orderBy key rows).head? = none ↔ rows = [] := by
  rw [List.head?_eq_none_iff, ← List.length_eq_zero_iff, orderBy_perm.length_eq, List.length_eq_zero_iff]

theorem pairwise_le_orderBy : (orderBy key rows).Pairwise fun a b => key a ≤ key b := by
  have : Std.Total fun a b : α => key a ≤ key b := ⟨fun a b => le_total _ _⟩
  have : IsTrans α fun a b => key a ≤ key b := ⟨fun a b c => le_trans⟩
  exact List.pairwise_insertionSort _ rows

theorem pairwise_orderBy (h : (rows.map key).Nodup) : (orderBy key rows).Pairwise fun a b => key a < key b := by
  have hne : (orderBy key rows).Pairwise fun a b => key a ≠ key b :=
    List.pairwise_map.1 ((orderBy_perm.map key).nodup_iff.2 h)
  exact pairwise_le_orderBy.imp₂ (fun a b hab hn => lt_of_le_of_ne hab hn) hne

theorem mem_take_iff (h : rows.Pairwise fun a b => key a < key b) :
    x ∈ rows.take n ↔ x ∈ rows ∧ rank key (key x) rows < n := by
  unfold rank
  induction rows generalizing n with
  | nil => simp
  | cons a rows ih =>
    obtain ⟨ha, h⟩ := List.pairwise_cons.1 h
    cases n with
    | zero => simp
    | succ n =>
      rw [List.take_succ_cons, List.mem_cons, List.mem_cons, ih h, List.countP_cons]
      constructor
      · rintro (rfl | ⟨hx, hlt⟩)
        · refine ⟨.inl rfl, ?_⟩
          have h0 : rows.countP (fun b => decide (key b < key x)) = 0 :=
            List.countP_eq_zero.2 fun b hb => by simpa using (ha b hb).le
          simp [h0]
        · refine ⟨.inr hx, ?_⟩
          split <;> omega
      · rintro ⟨rfl | hx, hlt⟩
        · exact .inl rfl
        · refine .inr ⟨hx, ?_⟩
          rw [if_pos (by simpa using ha x hx)] at hlt
          omega

theorem rank_orderBy {k : β} : rank key k (orderBy key rows) = rank key k rows := orderBy_perm.countP_eq _

theorem mem_page_iff (h : (rows.map key).Nodup) : x ∈ page key n rows ↔ x ∈ rows ∧ rank key (key x) rows < n := by
  rw [page, mem_take_iff (pairwise_orderBy h), rank_orderBy, orderBy_perm.mem_iff]

theorem mem_of_mem_page (h : x ∈ page key n rows) : x ∈ rows := orderBy_perm.mem_iff.1 (List.mem_of_mem_take h)

theorem nodup_map_page {γ : Type*} {f : α → γ} (h : (rows.map f).Nodup) : ((page key n rows).map f).Nodup :=
  ((orderBy_perm.map f).nodup_iff.2 h).sublist ((List.take_sublist n _).map f)

theorem page_of_length_le (h : rows.length ≤ n) : page key n rows = orderBy key rows := by
  rw [page, List.take_of_length_le (orderBy_perm.length_eq.trans_le h)]

theorem take_page {m : ℕ} : (page key n rows).take m = page key (min m n) rows := List.take_take

theorem length_page : (page key n rows).length = min n rows.length := by
  rw [page, List.length_take, orderBy_perm.length_eq]

/-- The first `n` rows, where rows with one key may stand either way. -/
structure Firsts (key : α → β) (n : ℕ) (rows out : List α) : Prop where
  rest : ∃ rest, rows.Perm (out ++ rest) ∧ ∀ x ∈ out, ∀ y ∈ rest, key x ≤ key y
  length : out.length = min n rows.length

theorem firsts_page {γ : Type*} [LinearOrder γ] {f : β → γ} (hf : Monotone f) :
    Firsts (fun a => f (key a)) n rows (page key n rows) where
  rest := by
    refine ⟨(orderBy key rows).drop n, ?_, fun x hx y hy => hf ?_⟩
    · rw [page, List.take_append_drop]
      exact orderBy_perm.symm
    · have hsorted : (orderBy key rows).Pairwise fun a b => key a ≤ key b := pairwise_le_orderBy
      rw [← List.take_append_drop n (orderBy key rows)] at hsorted
      exact (List.pairwise_append.1 hsorted).2.2 x hx y hy
  length := length_page

theorem firsts_zero {γ : Type*} [LinearOrder γ] {key' : α → γ} {rows' : List α} :
    Firsts key 0 rows (page key' 0 rows') where
  rest := ⟨rows, List.Perm.refl rows, nofun⟩
  length := (Nat.zero_min _).symm

namespace Firsts

variable {out : List α}

theorem mem (h : Firsts key n rows out) (hx : x ∈ out) : x ∈ rows := by
  obtain ⟨rest, hperm, -⟩ := h.rest
  exact hperm.mem_iff.2 (List.mem_append_left _ hx)

theorem nodup_map {γ : Type*} {f : α → γ} (h : Firsts key n rows out) (hf : (rows.map f).Nodup) : (out.map f).Nodup := by
  obtain ⟨rest, hperm, -⟩ := h.rest
  have hall := (hperm.map f).nodup_iff.1 hf
  rw [List.map_append] at hall
  exact (List.nodup_append.1 hall).1

theorem le_of_notMem (h : Firsts key n rows out) {y : α} (hy : y ∈ rows) (hout : y ∉ out) (hx : x ∈ out) :
    key x ≤ key y := by
  obtain ⟨rest, hperm, hle⟩ := h.rest
  exact hle x hx y ((List.mem_append.1 (hperm.mem_iff.1 hy)).resolve_left hout)

theorem exists_first (h : Firsts key n rows out) (hn : 0 < n) (hx : x ∈ rows) :
    ∃ y ∈ out, ∀ z ∈ rows, key y ≤ key z := by
  have hlength := h.length
  have hpos : 0 < rows.length := List.length_pos_of_mem hx
  have hsorted : (orderBy key out).Pairwise fun a b => key a ≤ key b := pairwise_le_orderBy
  have hperm : (orderBy key out).Perm out := orderBy_perm
  cases hout : orderBy key out with
  | nil =>
    have hnil : out.length = 0 := by rw [← hperm.length_eq, hout, List.length_nil]
    omega
  | cons y others =>
    rw [hout] at hsorted
    have hmem (z : α) : z ∈ out ↔ z = y ∨ z ∈ others := by
      rw [← List.mem_cons, ← hout]
      exact hperm.mem_iff.symm
    refine ⟨y, (hmem y).2 (.inl rfl), fun z hz => ?_⟩
    by_cases hzout : z ∈ out
    · rcases (hmem z).1 hzout with rfl | hz
      · exact le_rfl
      · exact (List.pairwise_cons.1 hsorted).1 z hz
    · exact h.le_of_notMem hz hzout ((hmem y).2 (.inl rfl))

theorem congr {rows' out : List α} (hp : rows.Perm rows') : Firsts key n rows out ↔ Firsts key n rows' out := by
  constructor
  · rintro ⟨⟨rest, hperm, hle⟩, hlength⟩
    exact ⟨⟨rest, hp.symm.trans hperm, hle⟩, hlength.trans (by rw [hp.length_eq])⟩
  · rintro ⟨⟨rest, hperm, hle⟩, hlength⟩
    exact ⟨⟨rest, hp.trans hperm, hle⟩, hlength.trans (by rw [hp.length_eq])⟩

end Firsts

/-! ### A page of some of the rows

`out` are at most `m` of the `listed` rows, and the `others` are on no page. -/

section Listed

variable {listed others out rest : List α} {m : ℕ}

theorem firsts_append_iff (hperm : listed.Perm (out ++ rest)) (hlength : out.length = min (min n m) listed.length) :
    Firsts key n (listed ++ others) out ↔ (∀ x ∈ out, ∀ y ∈ rest, key x ≤ key y) ∧
      (∀ y ∈ others, n ≤ listed.countP fun x => key x ≤ key y) ∧ (n ≤ m ∨ (listed ++ others).length ≤ m) := by
  have hall : (listed ++ others).Perm (out ++ (rest ++ others)) := by
    rw [← List.append_assoc]
    exact hperm.append_right others
  have hlisted := hperm.length_eq
  have hcount (y : α) : listed.countP (fun x => key x ≤ key y) =
      out.countP (fun x => key x ≤ key y) + rest.countP fun x => key x ≤ key y := by
    rw [hperm.countP_eq, List.countP_append]
  rw [List.length_append] at hlisted
  constructor
  · rintro ⟨⟨rest', hperm', hle⟩, hmin⟩
    have hrest : rest'.Perm (rest ++ others) := (List.perm_append_left_iff out).1 (hperm'.symm.trans hall)
    have hle (x : α) (hx : x ∈ out) (y : α) (hy : y ∈ rest ++ others) : key x ≤ key y :=
      hle x hx y (hrest.mem_iff.2 hy)
    rw [List.length_append] at hmin ⊢
    refine ⟨fun x hx y hy => hle x hx y (List.mem_append_left _ hy), fun y hy => ?_, by omega⟩
    have hpos : 0 < others.length := List.length_pos_of_mem hy
    have hout : out.countP (fun x => key x ≤ key y) = out.length :=
      List.countP_eq_length.2 fun x hx => by simpa using hle x hx y (List.mem_append_right _ hy)
    have hsum := hcount y
    omega
  · rintro ⟨hle, hothers, hcap⟩
    rw [List.length_append] at hcap
    have hfull (y : α) (hy : y ∈ others) : out.length = n := by
      have hn := hothers y hy
      have hmax : listed.countP (fun x => key x ≤ key y) ≤ listed.length := List.countP_le_length
      omega
    refine ⟨⟨rest ++ others, hall, fun x hx y hy => ?_⟩, ?_⟩
    · rcases List.mem_append.1 hy with hy | hy
      · exact hle x hx y hy
      · -- All of the `n` rows that are not behind `y` are in `out`, if one of them is not.
        by_contra hlt
        have hnone : rest.countP (fun z => key z ≤ key y) = 0 :=
          List.countP_eq_zero.2 fun z hz => by simpa using (lt_of_not_ge hlt).trans_le (hle x hx z hz)
        have hn := hothers y hy
        have hlen := hfull y hy
        have hout : out.countP (fun z => key z ≤ key y) = out.length := by
          have hmax : out.countP (fun z => key z ≤ key y) ≤ out.length := List.countP_le_length
          have hsum := hcount y
          omega
        exact hlt (by simpa using List.countP_eq_length.1 hout x hx)
    · rw [List.length_append]
      rcases others with _ | ⟨y, others⟩
      · rw [List.length_nil] at hcap ⊢
        omega
      · have hlen := hfull y List.mem_cons_self
        have hn := hothers y List.mem_cons_self
        have hmax : listed.countP (fun x => key x ≤ key y) ≤ listed.length := List.countP_le_length
        omega

theorem forall_le_iff_of_ge (hperm : listed.Perm (out ++ rest)) (hlength : out.length = min (min n m) listed.length)
    (hn : 0 < n) (hm : 0 < m) (hge : ∀ x ∈ out, ∀ y ∈ rest, key y ≤ key x) (hcap : n ≤ m ∨ listed.length ≤ m) :
    (∀ x ∈ out, ∀ y ∈ rest, key x ≤ key y) ↔ listed.length ≤ n ∨ ∀ a ∈ listed, ∀ b ∈ listed, key a = key b := by
  have hlisted := hperm.length_eq
  rw [List.length_append] at hlisted
  constructor
  · intro hle
    have heq (x : α) (hx : x ∈ out) (y : α) (hy : y ∈ rest) : key x = key y := (hle x hx y hy).antisymm (hge x hx y hy)
    by_cases hshort : listed.length ≤ n
    · exact .inl hshort
    · obtain ⟨x, hx⟩ : ∃ x, x ∈ out := List.exists_mem_of_length_pos (by omega)
      obtain ⟨y, hy⟩ : ∃ y, y ∈ rest := List.exists_mem_of_length_pos (by omega)
      have hone (a : α) (ha : a ∈ listed) : key a = key x := by
        rcases List.mem_append.1 (hperm.mem_iff.1 ha) with ha | ha
        · rw [heq a ha y hy, heq x hx y hy]
        · exact (heq x hx a ha).symm
      exact .inr fun a ha b hb => (hone a ha).trans (hone b hb).symm
  · rintro (hshort | hsame) x hx y hy
    · have hpos : 0 < rest.length := List.length_pos_of_mem hy
      omega
    · exact (hsame x (hperm.mem_iff.2 (List.mem_append_left _ hx)) y (hperm.mem_iff.2 (List.mem_append_right _ hy))).le

end Listed

theorem eq_orderBy {l : List α} (hp : l.Perm rows) (h : l.Pairwise fun a b => key a < key b) : l = orderBy key rows := by
  have hne : (rows.map key).Nodup :=
    (hp.map key).nodup_iff.1 (List.pairwise_map.2 (h.imp fun hab => ne_of_lt hab))
  refine (hp.trans orderBy_perm.symm).eq_of_pairwise (fun a b _ _ hab hba => ?_) h (pairwise_orderBy hne)
  exact absurd hba (lt_asymm hab)

theorem orderBy_filter {p : α → Bool} (h : (rows.map key).Nodup) :
    orderBy key (rows.filter p) = (orderBy key rows).filter p :=
  (eq_orderBy (orderBy_perm.filter p) ((pairwise_orderBy h).filter p)).symm

theorem orderBy_map {γ : Type*} {f : α → γ} {key' : γ → β} (h : ∀ a, key' (f a) = key a) :
    orderBy key' (rows.map f) = (orderBy key rows).map f :=
  (List.map_insertionSort _ _ f rows fun a _ b _ => by rw [h, h]).symm

theorem perm_of_map_perm {γ : Type*} {f : α → γ} {l : List α} (hf : (rows.map f).Nodup) (hsub : l ⊆ rows)
    (h : (l.map f).Perm (rows.map f)) : l.Perm rows := by
  have hnodup : l.Nodup := (h.nodup_iff.2 hf).of_map f
  refine (List.subperm_of_subset hnodup hsub).perm_of_length_le ?_
  have hlen := h.length_eq
  rw [List.length_map, List.length_map] at hlen
  exact hlen.ge

section Walk

variable (beyond : α → α → Prop) [DecidableRel beyond] (n : ℕ)

/-- The pages of `n` rows together, until no rows are left over. -/
def walk : ℕ → List α → Option (List α)
  | 0, _ => none
  | fuel + 1, rows =>
    if rows.length ≤ n then some rows
    else (rows.take n).getLast?.bind fun c =>
      (walk fuel (rows.filter fun x => beyond c x)).map fun pages => rows.take n ++ pages

/-- Where a page ends and rows are left, these are the rows beyond its last one. -/
def Cut (rows : List α) : Prop :=
  ∀ pre c suf, rows = pre ++ c :: suf → n ∣ pre.length + 1 → suf ≠ [] →
    (∀ a ∈ pre, ¬ beyond c a) ∧ ∀ b ∈ suf, beyond c b

variable {beyond n} {pre suf out : List α} {c : α} {fuel : ℕ}

omit [DecidableRel beyond] in
theorem cut_of_length_le (h : rows.length ≤ n) : Cut beyond n rows := by
  rintro pre c suf rfl hdvd hne
  have hlen : n ≤ pre.length + 1 := Nat.le_of_dvd (Nat.succ_pos _) hdvd
  have hpos : 0 < suf.length := List.length_pos_iff.2 hne
  simp only [List.length_append, List.length_cons] at h
  omega

omit [DecidableRel beyond] in
theorem cut_append [IsStrictOrder α beyond] (hn : pre.length + 1 = n) (hne : suf ≠ []) :
    Cut beyond n (pre ++ c :: suf) ↔
      ((∀ a ∈ pre, ¬ beyond c a) ∧ ∀ b ∈ suf, beyond c b) ∧ Cut beyond n suf := by
  constructor
  · intro h
    refine ⟨h pre c suf rfl (hn ▸ Nat.dvd_refl n) hne, fun pre' c' suf' hsuf hdvd hne' => ?_⟩
    have hlen : (pre ++ c :: pre').length + 1 = n + (pre'.length + 1) := by
      simp only [List.length_append, List.length_cons]
      omega
    obtain ⟨hpre, hsuf'⟩ := h (pre ++ c :: pre') c' suf' (by rw [hsuf]; simp) (by rw [hlen]; exact Nat.dvd_add (Nat.dvd_refl n) hdvd) hne'
    exact ⟨fun a ha => hpre a (List.mem_append_right _ (List.mem_cons_of_mem _ ha)), hsuf'⟩
  · rintro ⟨⟨hpre, hsuf⟩, h⟩ pre' c' suf' heq hdvd hne'
    rcases List.append_eq_append_iff.1 heq with ⟨mid, rfl, hmid⟩ | ⟨mid, rfl, hmid⟩
    · cases mid with
      | nil =>
        obtain ⟨rfl, rfl⟩ := List.cons.inj hmid
        exact ⟨by simpa using hpre, hsuf⟩
      | cons d mid =>
        obtain ⟨rfl, rfl⟩ := List.cons.inj hmid
        have hlen : (pre ++ c :: mid).length + 1 = n + (mid.length + 1) := by
          simp only [List.length_append, List.length_cons]
          omega
        rw [hlen] at hdvd
        obtain ⟨hmid, hsuf'⟩ := h mid c' suf' rfl ((Nat.dvd_add_right (Nat.dvd_refl n)).1 hdvd) hne'
        have hc' : beyond c c' := hsuf c' (by simp)
        refine ⟨fun a ha hbeyond => ?_, hsuf'⟩
        have hca : beyond c a := trans_of beyond hc' hbeyond
        rcases List.mem_append.1 ha with ha | ha
        · exact hpre a ha hca
        · rcases List.mem_cons.1 ha with rfl | ha
          · exact irrefl_of beyond _ hca
          · exact hmid a ha hbeyond
    · -- a shorter list ends no page
      cases mid with
      | nil =>
        obtain ⟨rfl, rfl⟩ := List.cons.inj hmid
        exact ⟨by simpa using hpre, hsuf⟩
      | cons d mid =>
        have hle : n ≤ pre'.length + 1 := Nat.le_of_dvd (Nat.succ_pos _) hdvd
        simp only [List.length_append, List.length_cons] at hn
        omega

theorem walk_subset (h : walk beyond n fuel rows = some out) : out ⊆ rows := by
  induction fuel generalizing rows out with
  | zero => cases h
  | succ fuel ih =>
    rw [walk] at h
    split at h
    · cases h
      exact List.Subset.refl _
    · simp only [Option.bind_eq_some_iff, Option.map_eq_some_iff] at h
      obtain ⟨c, -, pages, hpages, rfl⟩ := h
      refine List.append_subset.2 ⟨List.take_subset n rows, fun a ha => ?_⟩
      exact (List.mem_filter.1 (ih hpages ha)).1

theorem head_mem_walk (hn : 0 < n) (h : walk beyond n fuel (c :: rows) = some out) : c ∈ out := by
  obtain ⟨m, rfl⟩ : ∃ m, n = m + 1 := ⟨n - 1, by omega⟩
  cases fuel with
  | zero => cases h
  | succ fuel =>
    rw [walk] at h
    split at h
    · cases h
      exact List.mem_cons_self
    · simp only [Option.bind_eq_some_iff, Option.map_eq_some_iff] at h
      obtain ⟨_, -, pages, -, rfl⟩ := h
      rw [List.take_succ_cons, List.cons_append]
      exact List.mem_cons_self

theorem exists_page (hn : 0 < n) (h : n < rows.length) :
    ∃ pre c suf, rows = pre ++ c :: suf ∧ pre.length + 1 = n ∧ suf ≠ [] := by
  refine ⟨rows.take (n - 1), rows[n - 1], rows.drop n, ?_, ?_, ?_⟩
  · have hdrop : rows.drop (n - 1) = rows[n - 1] :: rows.drop (n - 1 + 1) := List.drop_eq_getElem_cons (by omega)
    rw [Nat.sub_add_cancel hn] at hdrop
    rw [← hdrop, List.take_append_drop]
  · rw [List.length_take]
    omega
  · rw [Ne, List.drop_eq_nil_iff]
    omega

theorem walk_succ_append (hn : pre.length + 1 = n) (hne : suf ≠ []) : walk beyond n (fuel + 1) (pre ++ c :: suf) =
    (walk beyond n fuel ((pre ++ c :: suf).filter fun x => beyond c x)).map fun pages => (pre ++ [c]) ++ pages := by
  have hpos : 0 < suf.length := List.length_pos_iff.2 hne
  have htake : (pre ++ c :: suf).take n = pre ++ [c] := by
    rw [show pre ++ c :: suf = (pre ++ [c]) ++ suf by simp]
    exact List.take_left' (by simpa using hn)
  rw [walk, if_neg (by simp only [List.length_append, List.length_cons]; omega), htake,
    List.getLast?_append_cons]
  rfl

theorem filter_beyond [IsStrictOrder α beyond] (hpre : ∀ a ∈ pre, ¬ beyond c a) (hsuf : ∀ b ∈ suf, beyond c b) :
    (pre ++ c :: suf).filter (fun x => beyond c x) = suf := by
  rw [List.filter_append, List.filter_cons_of_neg (by simpa using irrefl_of beyond c),
    List.filter_eq_nil_iff.2 (by simpa using hpre), List.filter_eq_self.2 (by simpa using hsuf), List.nil_append]

theorem walk_of_cut [IsStrictOrder α beyond] (hn : 0 < n) (h : Cut beyond n rows) (hfuel : rows.length < fuel) :
    walk beyond n fuel rows = some rows := by
  induction fuel generalizing rows with
  | zero => omega
  | succ fuel ih =>
    by_cases hlen : rows.length ≤ n
    · rw [walk, if_pos hlen]
    · obtain ⟨pre, c, suf, rfl, hpage, hne⟩ := exists_page hn (Nat.not_le.1 hlen)
      obtain ⟨⟨hpre, hsuf⟩, hcut⟩ := (cut_append hpage hne).1 h
      have hshort : suf.length < fuel := by
        simp only [List.length_append, List.length_cons] at hfuel
        omega
      rw [walk_succ_append hpage hne, filter_beyond hpre hsuf, ih hcut hshort]
      simp

theorem cut_of_perm_walk [IsStrictOrder α beyond] (hn : 0 < n) (hnodup : rows.Nodup)
    (h : walk beyond n fuel rows = some out) (hp : out.Perm rows) : Cut beyond n rows := by
  induction fuel generalizing rows out with
  | zero => cases h
  | succ fuel ih =>
    by_cases hlen : rows.length ≤ n
    · exact cut_of_length_le hlen
    obtain ⟨pre, c, suf, rfl, hpage, hne⟩ := exists_page hn (Nat.not_le.1 hlen)
    rw [walk_succ_append hpage hne, Option.map_eq_some_iff] at h
    obtain ⟨pages, hpages, rfl⟩ := h
    have hpages' : pages.Perm suf := by
      rw [show pre ++ c :: suf = (pre ++ [c]) ++ suf by simp] at hp
      exact (List.perm_append_left_iff _).1 hp
    have hdisjoint : ∀ a ∈ pre ++ [c], a ∉ pages := by
      intro a ha hmem
      rw [show pre ++ c :: suf = (pre ++ [c]) ++ suf by simp] at hnodup
      exact (List.nodup_append.1 hnodup).2.2 a ha a (hpages'.mem_iff.1 hmem) rfl
    have hsuf : ∀ b ∈ suf, beyond c b := fun b hb => by
      simpa using (List.mem_filter.1 (walk_subset hpages (hpages'.mem_iff.2 hb))).2
    -- the first row of the page that is beyond its last one would be shown again
    have hpre : ∀ a ∈ pre, ¬ beyond c a := by
      intro a ha hbeyond
      have hmem : a ∈ pre.filter fun x => beyond c x := List.mem_filter.2 ⟨ha, by simpa using hbeyond⟩
      obtain ⟨d, rest, hd⟩ := List.exists_cons_of_ne_nil (List.ne_nil_of_mem hmem)
      have hdpre : d ∈ pre := (List.mem_filter.1 (hd ▸ List.mem_cons_self : d ∈ pre.filter fun x => beyond c x)).1
      rw [List.filter_append, hd, List.cons_append] at hpages
      exact hdisjoint d (List.mem_append_left _ hdpre) (head_mem_walk hn hpages)
    refine (cut_append hpage hne).2 ⟨⟨hpre, hsuf⟩, ih ?_ (filter_beyond hpre hsuf ▸ hpages) hpages'⟩
    exact hpages'.nodup_iff.1 ((hp.nodup_iff.2 hnodup).sublist (List.sublist_append_right _ _))

theorem perm_walk_iff [IsStrictOrder α beyond] (hn : 0 < n) (hnodup : rows.Nodup) :
    (∃ fuel out, walk beyond n fuel rows = some out ∧ out.Perm rows) ↔ Cut beyond n rows := by
  constructor
  · rintro ⟨fuel, out, h, hp⟩
    exact cut_of_perm_walk hn hnodup h hp
  · intro h
    exact ⟨rows.length + 1, rows, walk_of_cut hn h (Nat.lt_succ_self _), List.Perm.refl _⟩

/-- The pages together, until one is empty. -/
def walkOut (beyond : α → α → Prop) [DecidableRel beyond] (n : ℕ) : ℕ → List α → Option (List α)
  | 0, _ => none
  | fuel + 1, rows => match (rows.take n).getLast? with
    | none => some []
    | some c => (walkOut beyond n fuel (rows.filter fun x => beyond c x)).map fun pages => rows.take n ++ pages

theorem walkOut_succ_append (hn : pre.length + 1 = n) : walkOut beyond n (fuel + 1) (pre ++ c :: suf) =
    (walkOut beyond n fuel ((pre ++ c :: suf).filter fun x => beyond c x)).map fun pages => (pre ++ [c]) ++ pages := by
  have htake : (pre ++ c :: suf).take n = pre ++ [c] := by
    rw [show pre ++ c :: suf = (pre ++ [c]) ++ suf by simp]
    exact List.take_left' (by simpa using hn)
  rw [walkOut, htake, List.getLast?_append_cons]
  rfl

theorem walkOut_succ (h : walkOut beyond n fuel rows = some out) : walkOut beyond n (fuel + 1) rows = some out := by
  induction fuel generalizing rows out with
  | zero => cases h
  | succ fuel ih =>
    rw [walkOut] at h ⊢
    split at h
    · exact h
    · obtain ⟨pages, hpages, rfl⟩ := Option.map_eq_some_iff.1 h
      rw [ih hpages]
      rfl

theorem walkOut_subset (h : walkOut beyond n fuel rows = some out) : out ⊆ rows := by
  induction fuel generalizing rows out with
  | zero => cases h
  | succ fuel ih =>
    rw [walkOut] at h
    split at h
    · cases h
      exact List.nil_subset _
    · obtain ⟨pages, hpages, rfl⟩ := Option.map_eq_some_iff.1 h
      refine List.append_subset.2 ⟨List.take_subset n rows, fun a ha => ?_⟩
      exact (List.mem_filter.1 (ih hpages ha)).1

theorem walkOut_of_length_le [IsStrictOrder α beyond] (hrows : rows.Pairwise fun a b => ¬ beyond b a)
    (h : rows.length ≤ n) : walkOut beyond n (fuel + 2) rows = some rows := by
  rcases List.eq_nil_or_concat rows with rfl | ⟨init, c, rfl⟩
  · rw [walkOut, List.take_nil]
    rfl
  · rw [List.concat_eq_append] at hrows h ⊢
    have hnone : (init ++ [c]).filter (fun x => beyond c x) = [] := by
      refine List.filter_eq_nil_iff.2 fun a ha => ?_
      rcases List.mem_append.1 ha with ha | ha
      · simpa using (List.pairwise_append.1 hrows).2.2 a ha c List.mem_cons_self
      · rw [List.mem_singleton.1 ha]
        simpa using irrefl_of beyond c
    rw [walkOut, List.take_of_length_le h, List.getLast?_append_cons]
    dsimp only [List.getLast?_singleton]
    rw [hnone, walkOut, List.take_nil]
    simp

theorem walkOut_of_walk [IsStrictOrder α beyond] (hn : 0 < n) (hrows : rows.Pairwise fun a b => ¬ beyond b a)
    (h : walk beyond n fuel rows = some out) : walkOut beyond n (fuel + 1) rows = some out := by
  induction fuel generalizing rows out with
  | zero => cases h
  | succ fuel ih =>
    by_cases hlen : rows.length ≤ n
    · rw [walk, if_pos hlen] at h
      rw [walkOut_of_length_le hrows hlen, h]
    · obtain ⟨pre, c, suf, rfl, hpage, hne⟩ := exists_page hn (Nat.not_le.1 hlen)
      rw [walk_succ_append hpage hne, Option.map_eq_some_iff] at h
      obtain ⟨pages, hpages, rfl⟩ := h
      rw [walkOut_succ_append hpage, ih (hrows.filter _) hpages]
      rfl

theorem walk_of_walkOut [IsStrictOrder α beyond] (hn : 0 < n) (hrows : rows.Pairwise fun a b => ¬ beyond b a)
    (h : walkOut beyond n fuel rows = some out) : walk beyond n fuel rows = some out := by
  induction fuel generalizing rows out with
  | zero => cases h
  | succ fuel ih =>
    by_cases hlen : rows.length ≤ n
    · have hmore : walkOut beyond n (fuel + 2) rows = some rows := walkOut_of_length_le hrows hlen
      rw [walk, if_pos hlen, ← hmore, walkOut_succ h]
    · obtain ⟨pre, c, suf, rfl, hpage, hne⟩ := exists_page hn (Nat.not_le.1 hlen)
      rw [walkOut_succ_append hpage, Option.map_eq_some_iff] at h
      obtain ⟨pages, hpages, rfl⟩ := h
      rw [walk_succ_append hpage hne, ih (hrows.filter _) hpages]
      rfl

theorem perm_walkOut_iff [IsStrictOrder α beyond] (hn : 0 < n) (hrows : rows.Pairwise fun a b => ¬ beyond b a)
    (hnodup : rows.Nodup) : (∃ fuel out, walkOut beyond n fuel rows = some out ∧ out.Perm rows) ↔ Cut beyond n rows := by
  rw [← perm_walk_iff hn hnodup]
  constructor
  · rintro ⟨fuel, out, h, hp⟩
    exact ⟨fuel, out, walk_of_walkOut hn hrows h, hp⟩
  · rintro ⟨fuel, out, h, hp⟩
    exact ⟨fuel + 1, out, walkOut_of_walk hn hrows h, hp⟩

end Walk

/-! ### A reader who is told where to go on -/

section Follow

variable {ι κ : Type*}

/-- Ask for the page behind the cursor that the last answer names, until it names none. -/
def follow (fetch : Option κ → Option (List ι × Option κ)) : ℕ → Option κ → Option (List ι)
  | 0, _ => none
  | fuel + 1, cursor => (fetch cursor).bind fun page => match page.2 with
    | none => some page.1
    | some next => (follow fetch fuel (some next)).map fun pages => page.1 ++ pages

/-- The rows beyond `c`, or all. -/
def rest (beyond : α → α → Prop) [DecidableRel beyond] (rows : List α) (c : Option α) : List α :=
  rows.filter fun x => c.all fun c => beyond c x

/-- The first `n` rows beyond `c`, and the last one of them if there are more. -/
def window (beyond : α → α → Prop) [DecidableRel beyond] (n : ℕ) (rows : List α) (c : Option α) :
    List α × Option α :=
  ((rest beyond rows c).take n,
    if n < (rest beyond rows c).length then ((rest beyond rows c).take n).getLast? else none)

variable {beyond : α → α → Prop} [DecidableRel beyond] {fetch : Option κ → Option (List ι × Option κ)}
  {name : α → ι} {cursor : α → κ} {c : Option α} {fuel : ℕ}

theorem rest_none : rest beyond rows none = rows := List.filter_eq_self.2 fun _ _ => rfl

theorem rest_rest [IsStrictOrder α beyond] {d : α} (hd : d ∈ rest beyond rows c) :
    (rest beyond rows c).filter (fun x => beyond d x) = rest beyond rows (some d) := by
  unfold rest at hd ⊢
  rw [List.filter_filter]
  refine List.filter_congr fun x _ => ?_
  rw [Option.all_some, Bool.eq_iff_iff, Bool.and_eq_true, decide_eq_true_eq]
  refine ⟨fun h => h.1, fun h => ⟨h, ?_⟩⟩
  cases c with
  | none => rfl
  | some c =>
    have hcd : beyond c d := by simpa using (List.mem_filter.1 hd).2
    exact decide_eq_true (trans_of beyond hcd h)

theorem follow_eq_walk [IsStrictOrder α beyond] (hn : 0 < n)
    (hfetch : ∀ c : Option α, (∀ d ∈ c, d ∈ rows) → fetch (c.map cursor) =
      some (((window beyond n rows c).1.map name), (window beyond n rows c).2.map cursor))
    (hc : ∀ d ∈ c, d ∈ rows) (fuel : ℕ) :
    follow fetch fuel (c.map cursor) = (walk beyond n fuel (rest beyond rows c)).map fun out => out.map name := by
  induction fuel generalizing c with
  | zero => rfl
  | succ fuel ih =>
    rw [follow, hfetch c hc, Option.bind_some, walk, window]
    dsimp only
    by_cases hlen : n < (rest beyond rows c).length
    · obtain ⟨pre, d, suf, hrows, hpage, -⟩ := exists_page hn hlen
      have htake : (rest beyond rows c).take n = pre ++ [d] := by
        rw [hrows, show pre ++ d :: suf = (pre ++ [d]) ++ suf by simp]
        exact List.take_left' (by simpa using hpage)
      have hd : d ∈ rest beyond rows c := by simp [hrows]
      rw [if_pos hlen, if_neg (Nat.not_le.2 hlen), htake, List.getLast?_concat, Option.map_some, Option.bind_some,
        rest_rest hd]
      have hnext := ih (c := some d) fun e he => Option.some.inj he ▸ (List.mem_filter.1 hd).1
      rw [Option.map_some] at hnext
      dsimp only
      rw [hnext, Option.map_map, Option.map_map]
      refine Option.map_congr fun pages _ => ?_
      simp only [Function.comp_apply, List.map_append]
    · rw [if_neg hlen, if_pos (Nat.not_lt.1 hlen), List.take_of_length_le (Nat.not_lt.1 hlen)]
      rfl

theorem perm_follow_iff [IsStrictOrder α beyond] (hn : 0 < n) (hnames : (rows.map name).Nodup)
    (hfetch : ∀ c : Option α, (∀ d ∈ c, d ∈ rows) → fetch (c.map cursor) =
      some (((window beyond n rows c).1.map name), (window beyond n rows c).2.map cursor)) :
    (∃ fuel out, follow fetch fuel none = some out ∧ out.Perm (rows.map name)) ↔ Cut beyond n rows := by
  have hfollow (fuel : ℕ) : follow fetch fuel none = (walk beyond n fuel rows).map fun out => out.map name := by
    have h := follow_eq_walk hn hfetch (c := none) nofun fuel
    rwa [rest_none, Option.map_none] at h
  rw [← perm_walk_iff hn (hnames.of_map _)]
  constructor
  · rintro ⟨fuel, out, hout, hp⟩
    rw [hfollow, Option.map_eq_some_iff] at hout
    obtain ⟨rows', hwalk, rfl⟩ := hout
    exact ⟨fuel, rows', hwalk, perm_of_map_perm hnames (walk_subset hwalk) hp⟩
  · rintro ⟨fuel, rows', hwalk, hp⟩
    exact ⟨fuel, rows'.map name, by rw [hfollow, hwalk]; rfl, hp.map _⟩

end Follow

/-! ### Pages that go on behind a time -/

section Times

variable {time : α → β}

/-- No page ends between two rows of one time. -/
def Parted (time : α → β) (n : ℕ) (rows : List α) : Prop :=
  ∀ pre a b suf, rows = pre ++ a :: b :: suf → n ∣ pre.length + 1 → time a ≠ time b

theorem parted_iff_getElem : Parted time n rows ↔ ∀ i : Fin rows.length, n ∣ i.val + 1 →
    (rows[i.val]?.all fun a => rows[i.val + 1]?.all fun b => time a ≠ time b) = true := by
  constructor
  · intro h i hdvd
    rw [Option.all_eq_true]
    intro a ha
    rw [Option.all_eq_true]
    intro b hb
    have hdrop : rows.drop i = a :: b :: rows.drop (i.val + 2) := by
      obtain ⟨hi, rfl⟩ := List.getElem?_eq_some_iff.1 ha
      obtain ⟨hi', rfl⟩ := List.getElem?_eq_some_iff.1 hb
      rw [List.drop_eq_getElem_cons hi, List.drop_eq_getElem_cons hi']
    have hlen : (rows.take i).length = i := by simp
    refine decide_eq_true (h (rows.take i) a b (rows.drop (i.val + 2)) ?_ (by rwa [hlen]))
    rw [← hdrop, List.take_append_drop]
  · rintro h pre a b suf rfl hdvd
    have hi := h ⟨pre.length, by simp⟩ hdvd
    simpa using hi

instance decidableParted : Decidable (Parted time n rows) := decidable_of_iff _ parted_iff_getElem.symm

instance isStrictOrder_time : IsStrictOrder α fun a b => time a < time b where
  irrefl _ := lt_irrefl _
  trans _ _ _ := lt_trans

theorem cut_iff_parted (hrows : rows.Pairwise fun a b => time a ≤ time b) :
    Cut (fun a b => time a < time b) n rows ↔ Parted time n rows := by
  constructor
  · rintro h pre a b suf rfl hdvd
    exact ne_of_lt ((h pre a (b :: suf) rfl hdvd (List.cons_ne_nil _ _)).2 b List.mem_cons_self)
  · rintro h pre c suf rfl hdvd hne
    obtain ⟨b, suf, rfl⟩ := List.exists_cons_of_ne_nil hne
    obtain ⟨-, hsuf, hpre⟩ := List.pairwise_append.1 hrows
    obtain ⟨hc, hb⟩ := List.pairwise_cons.1 hsuf
    refine ⟨fun a ha => not_lt.2 (hpre a ha c List.mem_cons_self), fun d hd => ?_⟩
    have hlt : time c < time b := lt_of_le_of_ne (hc b List.mem_cons_self) (h pre c b suf rfl hdvd)
    rcases List.mem_cons.1 hd with rfl | hd
    · exact hlt
    · exact hlt.trans_le ((List.pairwise_cons.1 hb).1 d hd)

end Times

end Page
