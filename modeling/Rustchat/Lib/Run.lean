import Mathlib.Data.List.Basic
import Mathlib.Data.List.Induction

/-!
# Runs of a partial step function

`step s a = none` says that the input `a` is not enabled in `s`. `exec` runs a list of inputs,
`AllStates` speaks of every state a run visits, `AllSteps` of every state together with the input
taken there and `AllSpans` of the two ends of every part of a run. `allStates_of_allSteps` is the
invariant rule; `allStates_iff_allSteps` is its sharp form, for a property that a step keeps exactly
when it meets a condition, and `allSpans_iff_allSteps` that for a preorder. `LastIs` says of a list of
inputs that the last one to switch something switched it on, and `Each` of a list that every element agrees with
those before it (`since` is the part that begins with an element). `foldl_iff` is the rule for loops that only add.
-/

namespace Run

variable {σ ι : Type*}

/-- The state after the inputs `as`, if each is enabled in turn. -/
def exec (step : σ → ι → Option σ) : σ → List ι → Option σ
  | s, [] => some s
  | s, a :: as => (step s a).bind fun s' => exec step s' as

/-- `Q` holds in every state that the run `as` from `s` visits. -/
def AllStates (step : σ → ι → Option σ) (Q : σ → Prop) (s : σ) (as : List ι) : Prop :=
  ∀ pre suf, as = pre ++ suf → ∀ t, exec step s pre = some t → Q t

/-- Every input of the run `as` from `s` is taken in a state that meets `P`. -/
def AllSteps (step : σ → ι → Option σ) (P : σ → ι → Prop) (s : σ) (as : List ι) : Prop :=
  ∀ pre a suf, as = pre ++ a :: suf → ∀ t, exec step s pre = some t → P t a

/-- `R` relates the states before and after every part of the run `as` from `s`. -/
def AllSpans (step : σ → ι → Option σ) (R : σ → σ → Prop) (s : σ) (as : List ι) : Prop :=
  ∀ pre mid suf, as = pre ++ (mid ++ suf) → ∀ t u, exec step s pre = some t → exec step t mid = some u → R t u

variable {step : σ → ι → Option σ} {P : σ → ι → Prop} {I Q : σ → Prop} {s t : σ} {a : ι}
  {as : List ι}

theorem exec_cons : exec step s (a :: as) = (step s a).bind fun s' => exec step s' as := rfl

theorem exec_cons_eq_some :
    exec step s (a :: as) = some t ↔ ∃ s', step s a = some s' ∧ exec step s' as = some t := by
  rw [exec_cons, Option.bind_eq_some_iff]

theorem exec_append {bs : List ι} : exec step s (as ++ bs) = (exec step s as).bind fun t => exec step t bs := by
  induction as generalizing s with
  | nil => rfl
  | cons a as ih =>
    rw [List.cons_append, exec_cons, exec_cons]
    cases step s a with
    | none => rfl
    | some s' => exact ih

theorem exec_singleton : exec step s [a] = step s a := by
  rw [exec_cons]; cases step s a <;> rfl

theorem allStates_nil : AllStates step Q s ([] : List ι) ↔ Q s := by
  constructor
  · exact fun h => h [] [] rfl s rfl
  · rintro h pre suf hp t ht
    obtain ⟨rfl, -⟩ := List.append_eq_nil_iff.1 hp.symm
    cases ht; exact h

theorem allStates_cons :
    AllStates step Q s (a :: as) ↔ Q s ∧ ∀ s', step s a = some s' → AllStates step Q s' as := by
  constructor
  · intro h
    refine ⟨h [] _ rfl s rfl, fun s' hs pre suf hp t ht => ?_⟩
    exact h (a :: pre) suf (by rw [hp]; rfl) t (exec_cons_eq_some.2 ⟨s', hs, ht⟩)
  · rintro ⟨h0, h⟩ pre suf hp t ht
    cases pre with
    | nil => cases ht; exact h0
    | cons b pre =>
      simp only [List.cons_append, List.cons.injEq] at hp
      obtain ⟨rfl, hp⟩ := hp
      obtain ⟨s', hs, ht⟩ := exec_cons_eq_some.1 ht
      exact h s' hs pre suf hp t ht

theorem allSteps_nil : AllSteps step P s ([] : List ι) := by
  intro pre a suf hp
  simp at hp

theorem allSteps_cons :
    AllSteps step P s (a :: as) ↔ P s a ∧ ∀ s', step s a = some s' → AllSteps step P s' as := by
  constructor
  · intro h
    refine ⟨h [] a as rfl s rfl, fun s' hs pre b suf hp t ht => ?_⟩
    exact h (a :: pre) b suf (by rw [hp]; rfl) t (exec_cons_eq_some.2 ⟨s', hs, ht⟩)
  · rintro ⟨h0, h⟩ pre b suf hp t ht
    cases pre with
    | nil =>
      simp only [List.nil_append, List.cons.injEq] at hp
      cases ht; exact hp.1 ▸ h0
    | cons c pre =>
      simp only [List.cons_append, List.cons.injEq] at hp
      obtain ⟨rfl, hp⟩ := hp
      obtain ⟨s', hs, ht⟩ := exec_cons_eq_some.1 ht
      exact h s' hs pre b suf hp t ht

/-- Whether the steps of a run meet a condition can be computed. -/
instance decidableAllSteps [∀ s a, Decidable (P s a)] : (as : List ι) → (s : σ) → Decidable (AllSteps step P s as)
  | [], _ => isTrue allSteps_nil
  | a :: as, s =>
    have : Decidable (∀ s', step s a = some s' → AllSteps step P s' as) :=
      match step s a with
      | none => isTrue fun _ hs => nomatch hs
      | some s' =>
        have := decidableAllSteps as s'
        decidable_of_iff (AllSteps step P s' as) ⟨fun h _ hs => Option.some.inj hs ▸ h, fun h => h s' rfl⟩
    decidable_of_iff _ allSteps_cons.symm

theorem AllSteps.rest {bs : List ι} (h : AllSteps step P s (as ++ bs)) (ht : exec step s as = some t) :
    AllSteps step P t bs := by
  intro pre a suf hp u hu
  refine h (as ++ pre) a suf (by rw [hp, List.append_assoc]) u ?_
  rw [exec_append, ht, Option.bind_some, hu]

theorem AllStates.last (h : AllStates step Q s as) (ht : exec step s as = some t) : Q t :=
  h as [] (by simp) t ht

theorem AllStates.mono (h : AllStates step I s as) (hQ : ∀ t, I t → Q t) : AllStates step Q s as :=
  fun pre suf hp t ht => hQ t (h pre suf hp t ht)

/-- The invariant rule: a property that holds at the start and that every step meeting `P` keeps
holds throughout the runs whose steps all meet `P`. -/
theorem allStates_of_allSteps (h : ∀ s a s', I s → P s a → step s a = some s' → I s') (h0 : I s)
    (hP : AllSteps step P s as) : AllStates step I s as := by
  induction as generalizing s with
  | nil => exact allStates_nil.2 h0
  | cons a as ih =>
    obtain ⟨hPa, hP⟩ := allSteps_cons.1 hP
    exact allStates_cons.2 ⟨h0, fun s' hs => ih (h s a s' h0 hPa hs) (hP s' hs)⟩

theorem AllSteps.of_invariant {R : σ → ι → Prop} (hP : AllSteps step P s as) (hI : AllStates step I s as)
    (h : ∀ t a, I t → P t a → R t a) : AllSteps step R s as :=
  fun pre a suf hp t ht => h t a (hI pre (a :: suf) hp t ht) (hP pre a suf hp t ht)

theorem invariant (h : ∀ s a s', I s → step s a = some s' → I s') (h0 : I s) :
    AllStates step I s as :=
  allStates_of_allSteps (P := fun _ _ => True) (fun s a s' hs _ => h s a s' hs) h0
    fun _ _ _ _ _ _ => trivial

theorem invariant_last (h : ∀ s a s', I s → step s a = some s' → I s') (h0 : I s)
    (ht : exec step s as = some t) : I t :=
  (invariant h h0).last ht

/-- When a step keeps `Q` exactly if it meets `P` (under an invariant `I` of every step), a run
keeps `Q` in all its states exactly if all its steps meet `P`. -/
theorem allStates_iff_allSteps (hI : ∀ s a s', I s → step s a = some s' → I s')
    (h : ∀ s a s', I s → Q s → step s a = some s' → (Q s' ↔ P s a)) (hI0 : I s) (h0 : Q s)
    (hrun : exec step s as = some t) : AllStates step Q s as ↔ AllSteps step P s as := by
  induction as generalizing s with
  | nil => exact ⟨fun _ => allSteps_nil, fun _ => allStates_nil.2 h0⟩
  | cons a as ih =>
    obtain ⟨s', hs, ht⟩ := exec_cons_eq_some.1 hrun
    have hI' := hI s a s' hI0 hs
    have hQP := h s a s' hI0 h0 hs
    rw [allStates_cons, allSteps_cons]
    constructor
    · rintro ⟨-, hQ⟩
      have hQ' := hQ s' hs
      have hs0 : Q s' := hQ' [] as rfl s' rfl
      refine ⟨hQP.1 hs0, fun u hu => ?_⟩
      rw [hs] at hu; cases hu
      exact (ih hI' hs0 ht).1 hQ'
    · rintro ⟨hPa, hP⟩
      refine ⟨h0, fun u hu => ?_⟩
      rw [hs] at hu; cases hu
      exact (ih hI' (hQP.2 hPa) ht).2 (hP s' hs)

/-- A property that no step restores once it is lost holds throughout a run if it holds at its end. -/
theorem allStates_of_last (hI : ∀ s a s', I s → step s a = some s' → I s')
    (h : ∀ s a s', I s → step s a = some s' → Q s' → Q s) (hI0 : I s) (hrun : exec step s as = some t)
    (ht : Q t) : AllStates step Q s as := by
  induction as generalizing s with
  | nil => cases hrun; exact allStates_nil.2 ht
  | cons a as ih =>
    obtain ⟨s', hs, hrun⟩ := exec_cons_eq_some.1 hrun
    have hQ := ih (hI s a s' hI0 hs) hrun
    refine allStates_cons.2 ⟨h s a s' hI0 hs (hQ [] as rfl s' rfl), fun u hu => ?_⟩
    rw [hs] at hu; cases hu
    exact hQ

/-- When a step keeps a preorder exactly if it meets `P`, all parts of a run keep it exactly if all steps
of the run meet `P`. -/
theorem allSpans_iff_allSteps {R : σ → σ → Prop} (hrefl : ∀ s, R s s) (htrans : ∀ s t u, R s t → R t u → R s u)
    (h : ∀ s a s', step s a = some s' → (R s s' ↔ P s a)) {last : σ} (hrun : exec step s as = some last) :
    AllSpans step R s as ↔ AllSteps step P s as := by
  constructor
  · intro hR pre a suf hp t ht
    rw [hp, exec_append, ht, Option.bind_some] at hrun
    obtain ⟨t', ht', -⟩ := exec_cons_eq_some.1 hrun
    exact (h t a t' ht').1 (hR pre [a] suf hp t t' ht (exec_singleton.trans ht'))
  · intro hP pre mid suf hp t u ht hu
    clear hrun
    induction mid generalizing pre t with
    | nil => cases hu; exact hrefl _
    | cons a mid ih =>
      obtain ⟨t', ht', hu⟩ := exec_cons_eq_some.1 hu
      have hstep : R t t' := (h t a t' ht').2 (hP pre a (mid ++ suf) hp t ht)
      have hpre : exec step s (pre ++ [a]) = some t' := by
        rw [exec_append, ht, Option.bind_some, exec_singleton, ht']
      exact htrans t t' u hstep (ih (pre ++ [a]) (by rw [hp, List.append_assoc]; rfl) t' hpre hu)

/-- A preorder that every step keeps (under an invariant) relates the ends of every part of a run. -/
theorem allSpans_of_step {R : σ → σ → Prop} (hrefl : ∀ s, R s s) (htrans : ∀ s t u, R s t → R t u → R s u)
    (hI : ∀ s a s', I s → step s a = some s' → I s') (h : ∀ s a s', I s → step s a = some s' → R s s') (h0 : I s) :
    AllSpans step R s as := by
  rintro pre mid suf - t u ht hu
  have hIt : I t := invariant_last hI h0 ht
  clear ht
  induction mid generalizing t with
  | nil => cases hu; exact hrefl _
  | cons a mid ih =>
    obtain ⟨t', ht', hu⟩ := exec_cons_eq_some.1 hu
    exact htrans t t' u (h t a t' hIt ht') (ih t' hu (hI t a t' hIt ht'))

theorem exists_exec {Done : σ → Prop} (measure : σ → ℕ)
    (h : ∀ s, Q s → ¬ Done s → ∃ as s', exec step s as = some s' ∧ Q s' ∧ measure s' < measure s) (hs : Q s) :
    ∃ as t, exec step s as = some t ∧ Q t ∧ Done t := by
  induction hn : measure s using Nat.strongRecOn generalizing s with
  | ind n ih =>
    by_cases hd : Done s
    · exact ⟨[], s, rfl, hs, hd⟩
    · obtain ⟨as, s', has, hs', hlt⟩ := h s hs hd
      obtain ⟨bs, t, hbs, ht⟩ := ih _ (hn ▸ hlt) hs' rfl
      exact ⟨as ++ bs, t, by rw [exec_append, has, Option.bind_some, hbs], ht⟩

theorem exists_exec_of_enabled (h : ∀ s a, ∃ s', step s a = some s') (s : σ) (as : List ι) :
    ∃ t, exec step s as = some t := by
  induction as generalizing s with
  | nil => exact ⟨s, rfl⟩
  | cons a as ih =>
    obtain ⟨s', hs⟩ := h s a
    obtain ⟨t, ht⟩ := ih s'
    exact ⟨t, exec_cons_eq_some.2 ⟨s', hs, ht⟩⟩

theorem foldl_iff {f : σ → ι → σ} {R : ι → Prop} {as : List ι} (hI : ∀ s, I s → ∀ a ∈ as, I (f s a))
    (hf : ∀ s, I s → ∀ a ∈ as, (Q (f s a) ↔ Q s ∨ R a)) (h0 : I s) :
    I (as.foldl f s) ∧ (Q (as.foldl f s) ↔ Q s ∨ ∃ a ∈ as, R a) := by
  induction as generalizing s with
  | nil => exact ⟨h0, by simp⟩
  | cons a as ih =>
    have hrest := ih (fun s hs b hb => hI s hs b (List.mem_cons_of_mem _ hb))
      (fun s hs b hb => hf s hs b (List.mem_cons_of_mem _ hb)) (hI s h0 a List.mem_cons_self)
    refine ⟨hrest.1, ?_⟩
    rw [List.foldl_cons, hrest.2, hf s h0 a List.mem_cons_self, or_assoc]
    simp

/-! ### Switches -/

/-- Of the inputs that switch something on or off, the last one switched it on. -/
def LastIs (on off : ι → Prop) (as : List ι) : Prop :=
  ∃ pre a suf, as = pre ++ a :: suf ∧ on a ∧ ∀ b ∈ suf, ¬ off b

theorem not_lastIs_nil {on off : ι → Prop} : ¬ LastIs on off [] := by
  rintro ⟨pre, a, suf, h, -, -⟩
  simp at h

theorem lastIs_concat {on off : ι → Prop} :
    LastIs on off (as ++ [a]) ↔ on a ∨ (¬ off a ∧ LastIs on off as) := by
  constructor
  · rintro ⟨pre, b, suf, h, hon, hoff⟩
    rcases List.eq_nil_or_concat suf with rfl | ⟨suf, c, rfl⟩
    · obtain ⟨-, hb⟩ := List.append_inj' h rfl
      rw [List.singleton_inj.1 hb]
      exact .inl hon
    · rw [List.concat_eq_append, ← List.cons_append, ← List.append_assoc] at h
      rw [List.concat_eq_append] at hoff
      obtain ⟨hpre, hc⟩ := List.append_inj' h rfl
      rw [List.singleton_inj.1 hc]
      exact .inr ⟨hoff c (by simp), pre, b, suf, hpre, hon, fun d hd => hoff d (by simp [hd])⟩
  · rintro (h | ⟨h, pre, b, suf, rfl, hon, hoff⟩)
    · exact ⟨as, a, [], rfl, h, fun b hb => by cases hb⟩
    · refine ⟨pre, b, suf ++ [a], by simp, hon, fun c hc => ?_⟩
      rcases List.mem_append.1 hc with hc | hc
      · exact hoff c hc
      · rw [List.mem_singleton.1 hc]; exact h

theorem lastIs_cons {on off : ι → Prop} :
    LastIs on off (a :: as) ↔ LastIs on off as ∨ (on a ∧ ∀ b ∈ as, ¬ off b) := by
  constructor
  · rintro ⟨pre, b, suf, h, hon, hoff⟩
    cases pre with
    | nil =>
      rw [List.nil_append, List.cons.injEq] at h
      obtain ⟨rfl, rfl⟩ := h
      exact .inr ⟨hon, hoff⟩
    | cons c pre =>
      rw [List.cons_append, List.cons.injEq] at h
      exact .inl ⟨pre, b, suf, h.2, hon, hoff⟩
  · rintro (⟨pre, b, suf, rfl, hon, hoff⟩ | ⟨hon, hoff⟩)
    · exact ⟨a :: pre, b, suf, rfl, hon, hoff⟩
    · exact ⟨[], a, as, rfl, hon, hoff⟩

instance decidableLastIs (on off : ι → Prop) [DecidablePred on] [DecidablePred off] :
    (as : List ι) → Decidable (LastIs on off as)
  | [] => isFalse not_lastIs_nil
  | a :: as =>
    have := decidableLastIs on off as
    decidable_of_iff (LastIs on off as ∨ (on a ∧ ∀ b ∈ as, ¬ off b)) lastIs_cons.symm

/-! ### Elements and what comes before them -/

variable {ε : Type*}

/-- Every element of the list, together with the elements before it, meets `P`. -/
def Each (P : List ε → ε → Prop) (l : List ε) : Prop :=
  ∀ older e newer, l = older ++ e :: newer → P older e

variable {P : List ε → ε → Prop} {l : List ε} {e : ε}

theorem each_nil : Each P ([] : List ε) := by
  intro older e newer h
  simp at h

theorem each_concat : Each P (l ++ [e]) ↔ Each P l ∧ P l e := by
  constructor
  · intro h
    refine ⟨fun older a newer hl => h older a (newer ++ [e]) (by rw [hl]; simp), h l e [] rfl⟩
  · rintro ⟨h, he⟩ older a newer hl
    rcases List.eq_nil_or_concat newer with rfl | ⟨newer, b, rfl⟩
    · obtain ⟨rfl, ha⟩ := List.append_inj' hl rfl
      rw [← List.singleton_inj.1 ha]
      exact he
    · rw [List.concat_eq_append, ← List.cons_append, ← List.append_assoc] at hl
      exact h older a newer (List.append_inj' hl rfl).1

theorem Each.left {l' : List ε} (h : Each P (l ++ l')) : Each P l :=
  fun older e newer hl => h older e (newer ++ l') (by rw [hl, List.append_assoc, List.cons_append])

theorem each_iff_get : Each P l ↔ ∀ i : Fin l.length, P (l.take i) (l.get i) := by
  constructor
  · intro h i
    exact h _ _ (l.drop (i + 1)) (by rw [List.get_eq_getElem, ← List.drop_eq_getElem_cons, List.take_append_drop])
  · rintro h older e newer rfl
    have hi := h ⟨older.length, by simp⟩
    simpa using hi

instance [∀ older e, Decidable (P older e)] : Decidable (Each P l) := decidable_of_iff _ each_iff_get.symm

theorem Each.countP_le {p : ε → Bool} {n : ℕ} (h : Each (fun older e => p e = true → older.countP p < n) l) :
    l.countP p ≤ n := by
  induction l using List.reverseRecOn with
  | nil => simp
  | append_singleton l e ih =>
    obtain ⟨hl, he⟩ := each_concat.1 h
    rw [List.countP_append, List.countP_singleton]
    by_cases hp : p e = true
    · have hlt := he hp
      rw [if_pos hp]
      omega
    · rw [if_neg hp]
      exact ih hl

theorem Each.nodup_filterMap {β : Type*} {f : ε → Option β}
    (h : Each (fun older e => ∀ b, f e = some b → ∀ other ∈ older, f other ≠ some b) l) : (l.filterMap f).Nodup := by
  induction l using List.reverseRecOn with
  | nil => simp
  | append_singleton l e ih =>
    obtain ⟨hl, he⟩ := each_concat.1 h
    rw [List.filterMap_append]
    refine List.nodup_append.2 ⟨ih hl, ?_, fun b hb b' hb' heq => ?_⟩
    · cases hf : f e <;> simp [hf]
    · obtain ⟨other, hother, hf⟩ := List.mem_filterMap.1 hb
      obtain ⟨e', he', hf'⟩ := List.mem_filterMap.1 hb'
      rw [List.mem_singleton.1 he'] at hf'
      exact he b' hf' other hother (heq ▸ hf)

/-- From the first element that meets `p` on. -/
def since (p : ε → Bool) (l : List ε) : List ε := l.dropWhile fun e => !p e

theorem mem_since {p : ε → Bool} {before between : List ε} {first : ε} (hp : p first = true) (he : e ∈ between) :
    e ∈ since p (before ++ first :: between) := by
  induction before with
  | nil =>
    rw [List.nil_append, since, List.dropWhile_cons_of_neg (by simp [hp])]
    exact List.mem_cons_of_mem _ he
  | cons a before ih =>
    rw [List.cons_append, since]
    by_cases ha : p a = true
    · rw [List.dropWhile_cons_of_neg (by simp [ha])]
      exact List.mem_cons_of_mem _ (List.mem_append_right _ (List.mem_cons_of_mem _ he))
    · rw [List.dropWhile_cons_of_pos (by simpa using ha)]
      exact ih

theorem older_or_older {a b : ε} (ha : a ∈ l) (hb : b ∈ l) : a = b ∨
    (∃ older newer, l = older ++ b :: newer ∧ a ∈ older) ∨ ∃ older newer, l = older ++ a :: newer ∧ b ∈ older := by
  obtain ⟨older, newer, rfl⟩ := List.append_of_mem hb
  rcases List.mem_append.1 ha with ha | ha
  · exact .inr (.inl ⟨older, newer, rfl, ha⟩)
  · rcases List.mem_cons.1 ha with rfl | ha
    · exact .inl rfl
    · obtain ⟨between, rest, rfl⟩ := List.append_of_mem ha
      refine .inr (.inr ⟨older ++ b :: between, rest, by simp, ?_⟩)
      exact List.mem_append_right _ List.mem_cons_self

end Run
