import Rustchat.Lib.Assoc
import Rustchat.Lib.Run

/-!
# Programs over a shared state

`Prog Act Res α` is a program that performs actions of `Act` and goes on with what each returns. `eval` runs one
alone; a `Pool` holds programs under way over one state, and `Pool.step` starts one or lets one perform its next
action, so that a run of the pool is an interleaving. `expand` puts a program in the place of every action.

`Safe guar rely post` says of a program that it performs only actions that meet `guar` and ends in `post`, as long
as its actions return what `rely` allows. Where every action that meets `guar` keeps an invariant of the state and
returns what `rely` allows, the invariant holds through every interleaving of safe programs (`Pool.guarded_step`).
`Once W` says that a program performs exactly one action in `W`. `Path` says what a program performs on the way to its
end, and `Follows` that every action agrees with what was performed before it; `trace` lists what the tasks of a run
performed, in their order (`Pool.trace_invariant`, `Pool.path_of_run`, `Pool.follows_of_run`). `Ghost` gives a program a
state that its actions and their results change; `Pool.shadowed_step` is the rule for what holds of the pool together
with the ghost states of its tasks.
-/

/-- A program that performs actions one at a time. -/
inductive Prog (Act : Type) (Res : Act → Type) (α : Type)
  | done (a : α)
  | perform (act : Act) (next : Res act → Prog Act Res α)

namespace Prog

variable {Act : Type} {Res : Act → Type} {α β σ : Type}

def bind : Prog Act Res α → (α → Prog Act Res β) → Prog Act Res β
  | done a, f => f a
  | perform act next, f => perform act fun r => (next r).bind f

instance : Monad (Prog Act Res) where
  pure := done
  bind := bind

def isDone : Prog Act Res α → Bool
  | done _ => true
  | perform _ _ => false

def call (act : Act) : Prog Act Res (Res act) := perform act done

@[simp] theorem pure_eq (a : α) : (pure a : Prog Act Res α) = done a := rfl

theorem bind_done (p : Prog Act Res α) : p >>= done = p := by
  induction p with
  | done a => rfl
  | perform act next ih => exact congrArg (perform act) (funext ih)

theorem bind_bind {γ : Type} (p : Prog Act Res α) (f : α → Prog Act Res β) (g : β → Prog Act Res γ) :
    p >>= f >>= g = p >>= fun a => f a >>= g := by
  induction p with
  | done a => rfl
  | perform act next ih => exact congrArg (perform act) (funext ih)

instance : LawfulMonad (Prog Act Res) :=
  LawfulMonad.mk' _ bind_done (fun _ _ => rfl) bind_bind

variable {sem : (act : Act) → σ → Res act × σ}

def eval (sem : (act : Act) → σ → Res act × σ) : Prog Act Res α → σ → α × σ
  | done a, s => (a, s)
  | perform act next, s => (next (sem act s).1).eval sem (sem act s).2

@[simp] theorem eval_done (a : α) (s : σ) : (done a : Prog Act Res α).eval sem s = (a, s) := rfl

@[simp] theorem eval_call (act : Act) (s : σ) :
    (call act : Prog Act Res (Res act)).eval sem s = sem act s := rfl

@[simp] theorem eval_bind (p : Prog Act Res α) (f : α → Prog Act Res β) (s : σ) :
    (p >>= f).eval sem s = (f (p.eval sem s).1).eval sem (p.eval sem s).2 := by
  induction p generalizing s with
  | done a => rfl
  | perform act next ih => exact ih _ _

section Expand

variable {Act' : Type} {Res' : Act' → Type} {impl : (act : Act) → Prog Act' Res' (Res act)}

/-- Put a program in the place of every action. -/
def expand (impl : (act : Act) → Prog Act' Res' (Res act)) : Prog Act Res α → Prog Act' Res' α
  | done a => done a
  | perform act next => impl act >>= fun r => (next r).expand impl

theorem eval_expand (p : Prog Act Res α) (sem : (act : Act') → σ → Res' act × σ) (s : σ) :
    (p.expand impl).eval sem s = p.eval (fun act => (impl act).eval sem) s := by
  induction p generalizing s with
  | done a => rfl
  | perform act next ih => rw [expand, eval_bind, ih]; rfl

end Expand

section Safe

variable {guar : Act → Prop} {rely : (act : Act) → Res act → Prop} {post : α → Prop} {post' : β → Prop}
  {p : Prog Act Res α}

/-- The program performs only actions in `guar` and ends in `post`, as long as its actions return what `rely`
allows. -/
def Safe (guar : Act → Prop) (rely : (act : Act) → Res act → Prop) (post : α → Prop) : Prog Act Res α → Prop
  | done a => post a
  | perform act next => guar act ∧ ∀ r, rely act r → (next r).Safe guar rely post

theorem safe_call {act : Act} (h : guar act) :
    (call act : Prog Act Res (Res act)).Safe guar rely (rely act) :=
  ⟨h, fun _ hr => hr⟩

theorem Safe.mono {post' : α → Prop} (h : p.Safe guar rely post) (hpost : ∀ a, post a → post' a) :
    p.Safe guar rely post' := by
  induction p with
  | done a => exact hpost a h
  | perform act next ih => exact ⟨h.1, fun r hr => ih r (h.2 r hr)⟩

theorem safe_bind {f : α → Prog Act Res β} :
    (p >>= f).Safe guar rely post' ↔ p.Safe guar rely fun a => (f a).Safe guar rely post' := by
  induction p with
  | done a => exact Iff.rfl
  | perform act next ih => exact and_congr_right fun _ => forall_congr' fun r => imp_congr_right fun _ => ih r

theorem Safe.bind {f : α → Prog Act Res β} (h : p.Safe guar rely post)
    (hf : ∀ a, post a → (f a).Safe guar rely post') : (p >>= f).Safe guar rely post' :=
  safe_bind.2 (h.mono hf)

end Safe

section Once

variable {W : Act → Prop} {rely : (act : Act) → Res act → Prop} {post : α → Prop} {p : Prog Act Res α}
  {f : α → Prog Act Res β}

/-- The program performs no action in `W`, whatever its actions return. -/
abbrev Never (W : Act → Prop) (p : Prog Act Res α) : Prop :=
  p.Safe (fun act => ¬ W act) (fun _ _ => True) fun _ => True

/-- The program performs exactly one action in `W`, as long as its actions before that return what `rely` allows. -/
def Once (W : Act → Prop) (rely : (act : Act) → Res act → Prop) : Prog Act Res α → Prop
  | done _ => False
  | perform act next => W act ∧ (∀ r, (next r).Never W) ∨ ¬ W act ∧ ∀ r, rely act r → (next r).Once W rely

theorem Once.bind (h : p.Once W rely) (hf : ∀ a, (f a).Never W) : (p >>= f).Once W rely := by
  induction p with
  | done a => exact h.elim
  | perform act next ih =>
    rcases h with ⟨hW, h⟩ | ⟨hW, h⟩
    · exact .inl ⟨hW, fun r => (h r).bind fun a _ => hf a⟩
    · exact .inr ⟨hW, fun r hr => ih r (h r hr)⟩

theorem Safe.bind_once (h : p.Safe (fun act => ¬ W act) rely post) (hf : ∀ a, post a → (f a).Once W rely) :
    (p >>= f).Once W rely := by
  induction p with
  | done a => exact hf a h
  | perform act next ih => exact .inr ⟨h.1, fun r hr => ih r (h.2 r hr)⟩

end Once

section Wp

variable {P : Act → σ → Prop} {Q Q' : α → σ → Prop} {p : Prog Act Res α} {s : σ}

/-- Run alone, the program performs every action in a state that meets `P`. -/
def Along (sem : (act : Act) → σ → Res act × σ) (P : Act → σ → Prop) : Prog Act Res α → σ → Prop
  | done _, _ => True
  | perform act next, s => P act s ∧ (next (sem act s).1).Along sem P (sem act s).2

/-- Run alone, the program ends in `Q` if it performs every action in a state that meets `P`. -/
def wp (sem : (act : Act) → σ → Res act × σ) (P : Act → σ → Prop) : Prog Act Res α → (α → σ → Prop) → σ → Prop
  | done a, Q, s => Q a s
  | perform act next, Q, s => P act s → (next (sem act s).1).wp sem P Q (sem act s).2

theorem along_of_forall (h : ∀ act s, P act s) (p : Prog Act Res α) (s : σ) : p.Along sem P s := by
  induction p generalizing s with
  | done a => exact trivial
  | perform act next ih => exact ⟨h act s, ih _ _⟩

theorem wp_bind {f : α → Prog Act Res β} {Q : β → σ → Prop} :
    (p >>= f).wp sem P Q s ↔ p.wp sem P (fun a s' => (f a).wp sem P Q s') s := by
  induction p generalizing s with
  | done a => exact Iff.rfl
  | perform act next ih => exact imp_congr_right fun _ => ih _

theorem wp.mono (h : p.wp sem P Q s) (hQ : ∀ a s', Q a s' → Q' a s') : p.wp sem P Q' s := by
  induction p generalizing s with
  | done a => exact hQ a s h
  | perform act next ih => exact fun hP => ih _ (h hP)

theorem wp.eval (h : p.wp sem P Q s) (ha : p.Along sem P s) : Q (p.eval sem s).1 (p.eval sem s).2 := by
  induction p generalizing s with
  | done a => exact h
  | perform act next ih => exact ih _ (h ha.1) ha.2

end Wp

section Path

variable {p q : Prog Act Res α} {es : List (Sigma Res)} {act : Act} {next : Res act → Prog Act Res α}

/-- The program performs `es`, the actions with what they return, and ends with `b`. -/
def Path : Prog Act Res α → List (Sigma Res) → α → Prop
  | done a, es, b => es = [] ∧ a = b
  | perform act next, es, b => ∃ r es', es = ⟨act, r⟩ :: es' ∧ (next r).Path es' b

/-- The program has performed `es`, and `q` is left of it. -/
def Remains : Prog Act Res α → List (Sigma Res) → Prog Act Res α → Prop
  | done a, es, q => es = [] ∧ q = done a
  | perform act next, es, q =>
    (es = [] ∧ q = perform act next) ∨ ∃ r es', es = ⟨act, r⟩ :: es' ∧ (next r).Remains es' q

@[simp] theorem path_done {a b : α} : (done a : Prog Act Res α).Path es b ↔ es = [] ∧ a = b := Iff.rfl

@[simp] theorem path_call {r : Res act} :
    (call act : Prog Act Res (Res act)).Path es r ↔ es = [⟨act, r⟩] := by
  constructor
  · rintro ⟨r', es', rfl, rfl, rfl⟩
    rfl
  · rintro rfl
    exact ⟨r, [], rfl, rfl, rfl⟩

theorem path_bind {f : α → Prog Act Res β} {b : β} :
    (p >>= f).Path es b ↔ ∃ a es₁ es₂, es = es₁ ++ es₂ ∧ p.Path es₁ a ∧ (f a).Path es₂ b := by
  induction p generalizing es with
  | done a =>
    constructor
    · exact fun h => ⟨a, [], es, rfl, ⟨rfl, rfl⟩, h⟩
    · rintro ⟨a', es₁, es₂, rfl, ⟨rfl, rfl⟩, h⟩
      exact h
  | perform act next ih =>
    constructor
    · rintro ⟨r, es', rfl, h⟩
      obtain ⟨a, es₁, es₂, rfl, hp, hf⟩ := (ih r).1 h
      exact ⟨a, ⟨act, r⟩ :: es₁, es₂, rfl, ⟨r, es₁, rfl, hp⟩, hf⟩
    · rintro ⟨a, es₁, es₂, rfl, ⟨r, es₁', rfl, hp⟩, hf⟩
      exact ⟨r, es₁' ++ es₂, rfl, (ih r).2 ⟨a, es₁', es₂, rfl, hp, hf⟩⟩

theorem remains_self (p : Prog Act Res α) : p.Remains [] p := by
  cases p with
  | done a => exact ⟨rfl, rfl⟩
  | perform act next => exact .inl ⟨rfl, rfl⟩

theorem Remains.concat (h : p.Remains es (perform act next)) (r : Res act) :
    p.Remains (es ++ [⟨act, r⟩]) (next r) := by
  induction p generalizing es with
  | done a => cases h.2
  | perform act' next' ih =>
    rcases h with ⟨rfl, heq⟩ | ⟨r', es', rfl, h⟩
    · cases heq
      exact .inr ⟨r, [], rfl, remains_self _⟩
    · exact .inr ⟨r', es' ++ [⟨act, r⟩], rfl, ih r' h⟩

theorem Remains.path {a : α} (h : p.Remains es (done a)) : p.Path es a := by
  induction p generalizing es with
  | done b =>
    obtain ⟨rfl, heq⟩ := h
    cases heq
    exact ⟨rfl, rfl⟩
  | perform act next ih =>
    rcases h with ⟨-, heq⟩ | ⟨r, es', rfl, h⟩
    · cases heq
    · exact ⟨r, es', rfl, ih r h⟩

end Path

section Follows

variable {W : List (Sigma Res) → Act → Prop} {p : Prog Act Res α} {past : List (Sigma Res)}

/-- Every action of the program agrees with what was performed before it; `past` is what was performed before the
program. -/
def Follows (W : List (Sigma Res) → Act → Prop) : Prog Act Res α → List (Sigma Res) → Prop
  | done _, _ => True
  | perform act next, past => W past act ∧ ∀ r, (next r).Follows W (past ++ [⟨act, r⟩])

theorem follows_bind {f : α → Prog Act Res β} :
    (p >>= f).Follows W past ↔ p.Follows W past ∧ ∀ es a, p.Path es a → (f a).Follows W (past ++ es) := by
  induction p generalizing past with
  | done a =>
    constructor
    · rintro h
      refine ⟨trivial, ?_⟩
      rintro es a' ⟨rfl, rfl⟩
      rw [List.append_nil]
      exact h
    · intro h
      have hf := h.2 [] a ⟨rfl, rfl⟩
      rw [List.append_nil] at hf
      exact hf
  | perform act next ih =>
    constructor
    · rintro ⟨hW, h⟩
      refine ⟨⟨hW, fun r => ((ih r).1 (h r)).1⟩, ?_⟩
      rintro es a ⟨r, es', rfl, hpath⟩
      have hf := ((ih r).1 (h r)).2 es' a hpath
      rw [List.append_assoc] at hf
      exact hf
    · rintro ⟨⟨hW, h⟩, hf⟩
      refine ⟨hW, fun r => (ih r).2 ⟨h r, fun es a hpath => ?_⟩⟩
      rw [List.append_assoc]
      exact hf _ a ⟨r, es, rfl, hpath⟩

theorem Follows.mono {W' : List (Sigma Res) → Act → Prop} (h : p.Follows W past)
    (hW : ∀ past act, W past act → W' past act) : p.Follows W' past := by
  induction p generalizing past with
  | done a => exact trivial
  | perform act next ih => exact ⟨hW past act h.1, fun r => ih r (h.2 r)⟩

theorem Safe.follows {guar : Act → Prop} {post : α → Prop} (h : p.Safe guar (fun _ _ => True) post)
    (hW : ∀ past act, guar act → W past act) : p.Follows W past := by
  induction p generalizing past with
  | done a => exact trivial
  | perform act next ih => exact ⟨hW past act h.1, fun r => ih r (h.2 r trivial)⟩

theorem follows_of_forall (h : ∀ past act, W past act) (p : Prog Act Res α) (past : List (Sigma Res)) :
    p.Follows W past := by
  induction p generalizing past with
  | done a => exact trivial
  | perform act next ih => exact ⟨h past act, fun r => ih r _⟩

theorem Follows.path {es : List (Sigma Res)} {a : α} {x : Sigma Res} (h : p.Follows W past) (hpath : p.Path es a)
    (hx : x ∈ es) : ∃ older newer, es = older ++ x :: newer ∧ W (past ++ older) x.1 := by
  induction p generalizing past es with
  | done b =>
    rw [hpath.1] at hx
    cases hx
  | perform act next ih =>
    obtain ⟨r, es', rfl, hnext⟩ := hpath
    rcases List.mem_cons.1 hx with rfl | hx
    · exact ⟨[], es', rfl, by rw [List.append_nil]; exact h.1⟩
    · obtain ⟨older, newer, rfl, hW⟩ := ih r (h.2 r) hnext hx
      refine ⟨⟨act, r⟩ :: older, newer, rfl, ?_⟩
      rw [List.append_assoc] at hW
      exact hW

end Follows

section Ghost

variable {γ : Type} {may : γ → Act → Prop} {upd : γ → (act : Act) → Res act → γ} {p : Prog Act Res α}
  {post post' : α → γ → Prop} {g : γ}

/-- Every action is allowed in the ghost state, which `upd` makes of what was performed before it, and the program
ends in `post`. -/
def Ghost (may : γ → Act → Prop) (upd : γ → (act : Act) → Res act → γ) :
    Prog Act Res α → (α → γ → Prop) → γ → Prop
  | done a, post, g => post a g
  | perform act next, post, g => may g act ∧ ∀ r, (next r).Ghost may upd post (upd g act r)

theorem ghost_bind {f : α → Prog Act Res β} {post : β → γ → Prop} : (p >>= f).Ghost may upd post g ↔
    p.Ghost may upd (fun a g' => (f a).Ghost may upd post g') g := by
  induction p generalizing g with
  | done a => exact Iff.rfl
  | perform act next ih => exact and_congr_right fun _ => forall_congr' fun r => ih r

theorem Ghost.mono (h : p.Ghost may upd post g) (hpost : ∀ a g', post a g' → post' a g') :
    p.Ghost may upd post' g := by
  induction p generalizing g with
  | done a => exact hpost a g h
  | perform act next ih => exact ⟨h.1, fun r => ih r (h.2 r)⟩

theorem Follows.still {guar : Act → Prop} {past : List (Sigma Res)} (h : p.Follows (fun _ act => guar act) past)
    (hguar : ∀ act, guar act → may g act ∧ ∀ r, upd g act r = g) : p.Ghost may upd (fun _ g' => g' = g) g := by
  induction p generalizing past with
  | done a => exact rfl
  | perform act next ih =>
    refine ⟨(hguar act h.1).1, fun r => ?_⟩
    rw [(hguar act h.1).2 r]
    exact ih r (h.2 r)

end Ghost

section Reaches

variable {rely : (act : Act) → Res act → Prop} {on off : Sigma Res → Prop} {p : Prog Act Res α}
  {f : α → Prog Act Res β} {es : List (Sigma Res)} {a : α}

/-- The program performs something in `off`, as long as its actions return what `rely` allows. -/
def Reaches (rely : (act : Act) → Res act → Prop) (off : Sigma Res → Prop) : Prog Act Res α → Prop
  | done _ => False
  | perform act next => ∀ r, rely act r → off ⟨act, r⟩ ∨ (next r).Reaches rely off

/-- Whatever the program performs in `on` is followed by something in `off`. -/
def Clears (rely : (act : Act) → Res act → Prop) (on off : Sigma Res → Prop) : Prog Act Res α → Prop
  | done _ => True
  | perform act next =>
    ∀ r, rely act r → (on ⟨act, r⟩ → (next r).Reaches rely off) ∧ (next r).Clears rely on off

theorem Reaches.bind (h : p.Reaches rely off) : (p >>= f).Reaches rely off := by
  induction p with
  | done a => exact h.elim
  | perform act next ih => exact fun r hr => (h r hr).imp_right (ih r)

theorem Safe.reaches {guar : Act → Prop} {post : α → Prop} (h : p.Safe guar rely post)
    (hf : ∀ a, post a → (f a).Reaches rely off) : (p >>= f).Reaches rely off := by
  induction p with
  | done a => exact hf a h
  | perform act next ih => exact fun r hr => .inr (ih r (h.2 r hr))

theorem Clears.bind (h : p.Clears rely on off) (hf : ∀ a, (f a).Clears rely on off) :
    (p >>= f).Clears rely on off := by
  induction p with
  | done a => exact hf a
  | perform act next ih => exact fun r hr => ⟨fun hon => ((h r hr).1 hon).bind, ih r (h r hr).2⟩

theorem Safe.clears {guar : Act → Prop} {post : α → Prop} (h : p.Safe guar rely post)
    (hf : ∀ a, post a → (f a).Reaches rely off ∧ (f a).Clears rely on off) :
    (p >>= f).Clears rely on off := by
  induction p with
  | done a => exact (hf a h).2
  | perform act next ih =>
    exact fun r hr => ⟨fun _ => (h.2 r hr).reaches fun a ha => (hf a ha).1, ih r (h.2 r hr)⟩

theorem Follows.clears {W : List (Sigma Res) → Act → Prop} {past : List (Sigma Res)} (h : p.Follows W past)
    (hW : ∀ past act r, W past act → rely act r → ¬ on ⟨act, r⟩) : p.Clears rely on off := by
  induction p generalizing past with
  | done a => exact trivial
  | perform act next ih => exact fun r hr => ⟨fun hon => absurd hon (hW past act r h.1 hr), ih r (h.2 r)⟩

theorem Reaches.path (h : p.Reaches rely off) (hpath : p.Path es a) (hes : ∀ x ∈ es, rely x.1 x.2) :
    ∃ x ∈ es, off x := by
  induction p generalizing es with
  | done b => exact h.elim
  | perform act next ih =>
    obtain ⟨r, es', rfl, hpath⟩ := hpath
    rcases h r (hes _ List.mem_cons_self) with hoff | h
    · exact ⟨_, List.mem_cons_self, hoff⟩
    · obtain ⟨x, hx, hoff⟩ := ih r h hpath fun x hx => hes x (List.mem_cons_of_mem _ hx)
      exact ⟨x, List.mem_cons_of_mem _ hx, hoff⟩

theorem Clears.path (h : p.Clears rely on off) (hpath : p.Path es a) (hes : ∀ x ∈ es, rely x.1 x.2) :
    ¬ Run.LastIs on off es := by
  induction p generalizing es with
  | done b =>
    obtain ⟨rfl, -⟩ := hpath
    exact Run.not_lastIs_nil
  | perform act next ih =>
    obtain ⟨r, es', rfl, hpath⟩ := hpath
    obtain ⟨hreaches, hclears⟩ := h r (hes _ List.mem_cons_self)
    have hrest : ∀ x ∈ es', rely x.1 x.2 := fun x hx => hes x (List.mem_cons_of_mem _ hx)
    rw [Run.lastIs_cons]
    rintro (hlast | ⟨hon, hoff⟩)
    · exact ih r hclears hpath hrest hlast
    · obtain ⟨x, hx, hx'⟩ := (hreaches hon).path hpath hrest
      exact hoff x hx hx'

end Reaches

section Fail

variable {ε : Type} (p : ExceptT ε (Prog Act Res) α) (f : α → ExceptT ε (Prog Act Res) β) (s : σ)

theorem eval_run_bind : (p >>= f).run.eval sem s =
    match p.run.eval sem s with
    | (.ok a, s') => (f a).run.eval sem s'
    | (.error e, s') => (.error e, s') := by
  rw [ExceptT.run_bind, eval_bind]
  rcases p.run.eval sem s with ⟨_ | _, s'⟩ <;> rfl

variable {p f s} in
theorem eval_run_bind_ok {s' : σ} {a : α} (h : p.run.eval sem s = (.ok a, s')) :
    (p >>= f).run.eval sem s = (f a).run.eval sem s' := by
  rw [eval_run_bind, h]

variable {p f s} in
theorem eval_run_bind_error {s' : σ} {e : ε} (h : p.run.eval sem s = (.error e, s')) :
    (p >>= f).run.eval sem s = (.error e, s') := by
  rw [eval_run_bind, h]

theorem eval_run_forM {γ : Type} {g : γ → ExceptT ε (Prog Act Res) PUnit} {h : γ → σ → σ}
    (hg : ∀ c s, (g c).run.eval sem s = (.ok PUnit.unit, h c s)) (cs : List γ) (s : σ) :
    (cs.forM g).run.eval sem s = (.ok PUnit.unit, cs.foldl (fun s c => h c s) s) := by
  induction cs generalizing s with
  | nil => rfl
  | cons c cs ih =>
    have hcons : (c :: cs).forM g = g c >>= fun _ => cs.forM g := rfl
    rw [hcons, eval_run_bind, hg]
    exact ih (h c s)

theorem safe_run_bind {guar : Act → Prop} {rely : (act : Act) → Res act → Prop} {post : Except ε β → Prop} :
    (p >>= f).run.Safe guar rely post ↔ p.run.Safe guar rely fun r =>
      match r with
      | .ok a => (f a).run.Safe guar rely post
      | .error e => post (.error e) := by
  rw [ExceptT.run_bind, safe_bind]
  constructor
  · intro h
    refine h.mono fun r hr => ?_
    cases r with
    | ok a => exact hr
    | error e => exact hr
  · intro h
    refine h.mono fun r hr => ?_
    cases r with
    | ok a => exact hr
    | error e => exact hr

theorem safe_run_lift {guar : Act → Prop} {rely : (act : Act) → Res act → Prop} {post : Except ε α → Prop}
    {p : Prog Act Res α} : (ExceptT.lift p : ExceptT ε (Prog Act Res) α).run.Safe guar rely post ↔
      p.Safe guar rely fun a => post (.ok a) := by
  rw [ExceptT.run_lift, map_eq_pure_bind, safe_bind]
  exact Iff.rfl

theorem path_run_bind {es : List (Sigma Res)} {r : Except ε β} : (p >>= f).run.Path es r ↔
    (∃ a es₁ es₂, es = es₁ ++ es₂ ∧ p.run.Path es₁ (.ok a) ∧ (f a).run.Path es₂ r) ∨
      ∃ e, r = .error e ∧ p.run.Path es (.error e) := by
  rw [ExceptT.run_bind, path_bind]
  constructor
  · rintro ⟨r', es₁, es₂, rfl, hp, hf⟩
    cases r' with
    | ok a => exact .inl ⟨a, es₁, es₂, rfl, hp, hf⟩
    | error e =>
      obtain ⟨rfl, rfl⟩ := hf
      exact .inr ⟨e, rfl, by rw [List.append_nil]; exact hp⟩
  · rintro (⟨a, es₁, es₂, rfl, hp, hf⟩ | ⟨e, rfl, hp⟩)
    · exact ⟨.ok a, es₁, es₂, rfl, hp, hf⟩
    · exact ⟨.error e, es, [], (List.append_nil _).symm, hp, rfl, rfl⟩

theorem path_run_bind_ok {es : List (Sigma Res)} {b : β} : (p >>= f).run.Path es (.ok b) ↔
    ∃ a es₁ es₂, es = es₁ ++ es₂ ∧ p.run.Path es₁ (.ok a) ∧ (f a).run.Path es₂ (.ok b) := by
  rw [path_run_bind, or_iff_left fun ⟨e, he, _⟩ => (by cases he)]

theorem path_map {es : List (Sigma Res)} {p : Prog Act Res α} {f : α → β} {b : β} :
    (f <$> p).Path es b ↔ ∃ a, b = f a ∧ p.Path es a := by
  rw [map_eq_pure_bind, path_bind]
  constructor
  · rintro ⟨a, es₁, es₂, rfl, hp, rfl, rfl⟩
    exact ⟨a, rfl, by rw [List.append_nil]; exact hp⟩
  · rintro ⟨a, rfl, hp⟩
    exact ⟨a, es, [], (List.append_nil _).symm, hp, rfl, rfl⟩

theorem path_run_call {es : List (Sigma Res)} {act : Act} {f : Res act → ExceptT ε (Prog Act Res) β} {r : Except ε β} :
    (ExceptT.lift (call act) >>= f).run.Path es r ↔
    ∃ a es', es = ⟨act, a⟩ :: es' ∧ (f a).run.Path es' r := Iff.rfl

theorem path_run_adapt {ε' : Type} {es : List (Sigma Res)} {f : ε → ε'} {r : Except ε' α} :
    (ExceptT.adapt f p).run.Path es r ↔ ∃ r', r = r'.mapError f ∧ p.run.Path es r' := path_map

theorem follows_run_bind {W : List (Sigma Res) → Act → Prop} {past : List (Sigma Res)} :
    (p >>= f).run.Follows W past ↔
      p.run.Follows W past ∧ ∀ es a, p.run.Path es (.ok a) → (f a).run.Follows W (past ++ es) := by
  rw [ExceptT.run_bind, follows_bind]
  constructor
  · exact fun h => ⟨h.1, fun es a hpath => h.2 es (.ok a) hpath⟩
  · rintro ⟨h, hf⟩
    refine ⟨h, fun es r hpath => ?_⟩
    cases r with
    | ok a => exact hf es a hpath
    | error e => exact trivial

theorem follows_run_call {W : List (Sigma Res) → Act → Prop} {past : List (Sigma Res)} {act : Act}
    {f : Res act → ExceptT ε (Prog Act Res) β} : (ExceptT.lift (call act) >>= f).run.Follows W past ↔
      W past act ∧ ∀ r, (f r).run.Follows W (past ++ [⟨act, r⟩]) := Iff.rfl

/-- Every action agrees with what was performed before it, whatever was performed before the program. -/
def Always (W : List (Sigma Res) → Act → Prop) (p : ExceptT ε (Prog Act Res) α) : Prop :=
  ∀ past, p.run.Follows W past

section Always

variable {W : List (Sigma Res) → Act → Prop} {p f}

theorem always_pure (a : α) : Always W (pure a : ExceptT ε (Prog Act Res) α) := fun _ => trivial

theorem always_throw (e : ε) : Always W (throw e : ExceptT ε (Prog Act Res) α) := fun _ => trivial

theorem always_lift {act : Act} (h : ∀ past, W past act) :
    Always W (ExceptT.lift (call act) : ExceptT ε (Prog Act Res) (Res act)) :=
      fun past => ⟨h past, fun _ => trivial⟩

theorem Always.bind (h : Always W p) (hf : ∀ a, Always W (f a)) : Always W (p >>= f) :=
  fun past => (follows_run_bind p f).2 ⟨h past, fun _ a _ => hf a _⟩

theorem always_forM {γ : Type} {g : γ → ExceptT ε (Prog Act Res) PUnit} (h : ∀ c, Always W (g c)) (cs : List γ) :
    Always W (cs.forM g) := by
  induction cs with
  | nil => exact always_pure _
  | cons c cs ih => exact (h c).bind fun _ => ih

theorem always_foldlM {γ : Type} {g : β → γ → ExceptT ε (Prog Act Res) β} (h : ∀ b c, Always W (g b c)) (cs : List γ)
    (b : β) : Always W (cs.foldlM g b) := by
  induction cs generalizing b with
  | nil => exact always_pure _
  | cons c cs ih => exact (h b c).bind ih

theorem Always.mono {W' : List (Sigma Res) → Act → Prop} (h : Always W p) (hW : ∀ past act, W past act → W' past act) :
    Always W' p := fun past => (h past).mono hW

end Always

section Ends

variable {rely : (act : Act) → Res act → Prop} {post : α → Prop} {post' : β → Prop}
    {on off : Sigma Res → Prop} {p f}

/-- The program does not fail and returns what meets `post`, as long as its actions return what `rely` allows. -/
def Ends (rely : (act : Act) → Res act → Prop) (post : α → Prop) (p : ExceptT ε (Prog Act Res) α) : Prop :=
  p.run.Safe (fun _ => True) rely fun r => ∃ a, r = .ok a ∧ post a

theorem ends_pure {a : α} (h : post a) : Ends rely post (pure a : ExceptT ε (Prog Act Res) α) := ⟨a, rfl, h⟩

theorem ends_lift {act : Act} :
    Ends rely (rely act) (ExceptT.lift (call act) : ExceptT ε (Prog Act Res) (Res act)) :=
  ⟨trivial, fun r hr => ⟨r, rfl, hr⟩⟩

theorem Ends.mono {post'' : α → Prop} (h : Ends rely post p) (hpost : ∀ a, post a → post'' a) :
    Ends rely post'' p :=
  Safe.mono h fun _ ⟨a, ha, hp⟩ => ⟨a, ha, hpost a hp⟩

theorem Ends.bind (h : Ends rely post p) (hf : ∀ a, post a → Ends rely post' (f a)) :
    Ends rely post' (p >>= f) := by
  refine (safe_run_bind p f).2 (Safe.mono h ?_)
  rintro r ⟨a, rfl, ha⟩
  exact hf a ha

theorem ends_forM {γ : Type} {g : γ → ExceptT ε (Prog Act Res) PUnit} {cs : List γ}
    (h : ∀ c ∈ cs, Ends rely (fun _ => True) (g c)) : Ends rely (fun _ => True) (cs.forM g) := by
  induction cs with
  | nil => exact ends_pure trivial
  | cons c cs ih =>
    exact (h c List.mem_cons_self).bind fun _ _ => ih fun c' hc' => h c' (List.mem_cons_of_mem _ hc')

theorem reaches_run_bind (h : p.run.Reaches rely off) : (p >>= f).run.Reaches rely off := by
  rw [ExceptT.run_bind]
  exact h.bind

theorem Ends.reaches (h : Ends rely post p) (hf : ∀ a, post a → (f a).run.Reaches rely off) :
    (p >>= f).run.Reaches rely off := by
  rw [ExceptT.run_bind]
  refine Safe.reaches h ?_
  rintro r ⟨a, rfl, ha⟩
  exact hf a ha

theorem clears_run_bind (h : p.run.Clears rely on off) (hf : ∀ a, (f a).run.Clears rely on off) :
    (p >>= f).run.Clears rely on off := by
  rw [ExceptT.run_bind]
  refine h.bind fun r => ?_
  cases r with
  | ok a => exact hf a
  | error e => exact trivial

theorem Ends.clears (h : Ends rely post p)
    (hf : ∀ a, post a → (f a).run.Reaches rely off ∧ (f a).run.Clears rely on off) :
    (p >>= f).run.Clears rely on off := by
  rw [ExceptT.run_bind]
  refine Safe.clears h ?_
  rintro r ⟨a, rfl, ha⟩
  exact hf a ha

theorem clears_run_call {act : Act} {f : Res act → ExceptT ε (Prog Act Res) β} :
    (ExceptT.lift (call act) >>= f).run.Clears rely on off ↔ ∀ r, rely act r →
      (on ⟨act, r⟩ → (f r).run.Reaches rely off) ∧ (f r).run.Clears rely on off := Iff.rfl

theorem reaches_run_call {act : Act} {f : Res act → ExceptT ε (Prog Act Res) β} :
    (ExceptT.lift (call act) >>= f).run.Reaches rely off ↔ ∀ r, rely act r →
      off ⟨act, r⟩ ∨ (f r).run.Reaches rely off := Iff.rfl

theorem clears_forM {γ : Type} {g : γ → ExceptT ε (Prog Act Res) PUnit} {cs : List γ}
    (h : ∀ c ∈ cs, (g c).run.Clears rely on off) : (cs.forM g).run.Clears rely on off := by
  induction cs with
  | nil => exact trivial
  | cons c cs ih =>
    exact clears_run_bind (h c List.mem_cons_self) fun _ => ih fun c' hc' => h c' (List.mem_cons_of_mem _ hc')

theorem reaches_forM {γ : Type} {g : γ → ExceptT ε (Prog Act Res) PUnit} {cs : List γ} {c : γ} (hc : c ∈ cs)
    (h : (g c).run.Reaches rely off) (hends : ∀ c ∈ cs, Ends rely (fun _ => True) (g c)) :
    (cs.forM g).run.Reaches rely off := by
  induction cs with
  | nil => cases hc
  | cons c' cs ih =>
    rcases List.mem_cons.1 hc with rfl | hc
    · exact reaches_run_bind h
    · exact (hends c' List.mem_cons_self).reaches fun _ _ => ih hc fun c hc => hends c (List.mem_cons_of_mem _ hc)

end Ends

section Heeds

variable {γ : Type} {may : γ → Act → Prop} {upd : γ → (act : Act) → Res act → γ} {post post' : α → γ → Prop}
  {post'' : β → γ → Prop} {p f} {g : γ}

/-- The rule of `Ghost` for programs that may fail: nothing is said of one that fails. -/
def Heeds (may : γ → Act → Prop) (upd : γ → (act : Act) → Res act → γ) (p : ExceptT ε (Prog Act Res) α)
    (post : α → γ → Prop) (g : γ) : Prop :=
  p.run.Ghost may upd (fun r g' => ∀ a, r = .ok a → post a g') g

theorem heeds_pure {a : α} (h : post a g) : Heeds may upd (pure a : ExceptT ε (Prog Act Res) α) post g := by
  rintro a' ha
  cases ha
  exact h

theorem heeds_throw (e : ε) : Heeds may upd (throw e : ExceptT ε (Prog Act Res) α) post g := by
  rintro a' ha
  cases ha

theorem heeds_call {act : Act} {f : Res act → ExceptT ε (Prog Act Res) β} :
    Heeds may upd (ExceptT.lift (call act) >>= f) post'' g ↔
      may g act ∧ ∀ r, Heeds may upd (f r) post'' (upd g act r) := Iff.rfl

theorem Heeds.mono (h : Heeds may upd p post g) (hpost : ∀ a g', post a g' → post' a g') :
    Heeds may upd p post' g :=
  Ghost.mono h fun _ _ hr a ha => hpost a _ (hr a ha)

theorem Heeds.bind (h : Heeds may upd p post g) (hf : ∀ a g', post a g' → Heeds may upd (f a) post'' g') :
    Heeds may upd (p >>= f) post'' g := by
  unfold Heeds at h ⊢
  rw [ExceptT.run_bind, ghost_bind]
  refine h.mono fun r g' hr => ?_
  cases r with
  | ok a => exact hf a g' (hr a rfl)
  | error e =>
    rintro b hb
    cases hb

theorem Heeds.tryCatch {handle : ε → ExceptT ε (Prog Act Res) α} (h : Heeds may upd p post g)
    (hhandle : ∀ e g', Heeds may upd (handle e) post g') : Heeds may upd (tryCatch p handle) post g := by
  refine ghost_bind.2 (Ghost.mono h fun r g' hr => ?_)
  cases r with
  | ok a => exact hr
  | error e => exact hhandle e g'

theorem heeds_forM {δ : Type} {body : δ → ExceptT ε (Prog Act Res) PUnit} {cs : List δ} {I : γ → Prop}
    (h : ∀ c ∈ cs, ∀ g, I g → Heeds may upd (body c) (fun _ g' => I g') g) (hg : I g) :
    Heeds may upd (cs.forM body) (fun _ g' => I g') g := by
  induction cs generalizing g with
  | nil => exact heeds_pure hg
  | cons c cs ih =>
    exact (h c List.mem_cons_self g hg).bind fun _ g' hg' => ih (fun c hc => h c (List.mem_cons_of_mem _ hc)) hg'

theorem heeds_foldlM {δ : Type} {body : β → δ → ExceptT ε (Prog Act Res) β} {cs : List δ} {b : β} {I : γ → Prop}
    (h : ∀ b c g, I g → Heeds may upd (body b c) (fun _ g' => I g') g) (hg : I g) :
    Heeds may upd (cs.foldlM body b) (fun _ g' => I g') g := by
  induction cs generalizing b g with
  | nil => exact heeds_pure hg
  | cons c cs ih => exact (h b c g hg).bind fun _ g' hg' => ih hg'

end Heeds

variable {P : Act → σ → Prop} {s}

theorem wp_run_bind {Q : Except ε β → σ → Prop} : (p >>= f).run.wp sem P Q s ↔
    p.run.wp sem P (fun r s' =>
      match r with
      | .ok a => (f a).run.wp sem P Q s'
      | .error e => Q (.error e) s') s := by
  rw [ExceptT.run_bind, wp_bind]
  constructor
  · intro h
    refine h.mono fun r s' hr => ?_
    cases r with
    | ok a => exact hr
    | error e => exact hr
  · intro h
    refine h.mono fun r s' hr => ?_
    cases r with
    | ok a => exact hr
    | error e => exact hr

theorem wp_run_lift {p : Prog Act Res α} {Q : Except ε α → σ → Prop} :
    (ExceptT.lift p : ExceptT ε (Prog Act Res) α).run.wp sem P Q s ↔
    p.wp sem P (fun a s' => Q (.ok a) s') s := by
  rw [ExceptT.run_lift, map_eq_pure_bind, wp_bind]
  exact Iff.rfl

end Fail

end Prog

structure Pool.Task (ι : Type*) (Act : Type) (Res : Act → Type) (α : Type) where
  label : ι
  prog : Prog Act Res α

/-- Programs under way over a shared state; those that are done stay, with what they returned. -/
structure Pool (σ : Type) (ι : Type*) (Act : Type) (Res : Act → Type) (α : Type) where
  shared : σ
  tasks : Assoc ℕ (Pool.Task ι Act Res α)

namespace Pool

variable {σ ω Act : Type} {ι : Type*} {Res : Act → Type} {α : Type}

/-- Start a task, or let one perform its next action; `o` says what the action meets. -/
inductive Input (ι : Type*) (ω : Type)
  | spawn (t : ℕ) (label : ι)
  | step (t : ℕ) (o : ω)

variable (program : ι → Prog Act Res α) (sem : ι → ω → (act : Act) → σ → Res act × σ)

def start (s : σ) : Pool σ ι Act Res α := ⟨s, ∅⟩

def step (pool : Pool σ ι Act Res α) : Input ι ω → Option (Pool σ ι Act Res α)
  | .spawn t label =>
    match pool.tasks.lookup t with
    | some _ => none
    | none => some { pool with tasks := pool.tasks.insert t ⟨label, program label⟩ }
  | .step t o =>
    match pool.tasks.lookup t with
    | some ⟨label, .perform act next⟩ =>
      let (r, s) := sem label o act pool.shared
      some ⟨s, pool.tasks.insert t ⟨label, next r⟩⟩
    | _ => none

/-- The task `t` is about to perform `act`. -/
def Performs (pool : Pool σ ι Act Res α) (t : ℕ) (label : ι) (act : Act)
    (next : Res act → Prog Act Res α) : Prop :=
  pool.tasks.lookup t = some ⟨label, .perform act next⟩

/-- The action that the task `t` is about to perform. -/
def upcoming (pool : Pool σ ι Act Res α) (t : ℕ) : Option Act :=
  match pool.tasks.lookup t with
  | some ⟨_, .perform act _⟩ => some act
  | _ => none

/-- What the task `t` returned. -/
def result (pool : Pool σ ι Act Res α) (t : ℕ) : Option α :=
  match pool.tasks.lookup t with
  | some ⟨_, .done a⟩ => some a
  | _ => none

/-- No task is under way. -/
def Quiet (pool : Pool σ ι Act Res α) : Prop :=
  ∀ t task, pool.tasks.lookup t = some task → ∃ a, task.prog = .done a

variable {program sem} {pool pool' : Pool σ ι Act Res α} {input : Input ι ω} {t : ℕ}

@[simp] theorem lookup_start (s : σ) (t : ℕ) : (start s : Pool σ ι Act Res α).tasks.lookup t = none :=
  AList.lookup_empty t

theorem step_cases (h : pool.step program sem input = some pool') :
    (∃ t label, input = .spawn t label ∧ pool.tasks.lookup t = none ∧
      pool' = { pool with tasks := pool.tasks.insert t ⟨label, program label⟩ }) ∨
    ∃ t o label act next, input = .step t o ∧ pool.Performs t label act next ∧
      pool' = ⟨(sem label o act pool.shared).2,
        pool.tasks.insert t ⟨label, next (sem label o act pool.shared).1⟩⟩ := by
  cases input with
  | spawn t label =>
    rw [step] at h
    split at h
    · cases h
    · next hl => exact .inl ⟨t, label, rfl, hl, (Option.some.inj h).symm⟩
  | step t o =>
    rw [step] at h
    split at h
    · next label act next hl => exact .inr ⟨t, o, label, act, next, rfl, hl, (Option.some.inj h).symm⟩
    · cases h

theorem result_eq_some {a : α} :
    pool.result t = some a ↔ ∃ label, pool.tasks.lookup t = some ⟨label, .done a⟩ := by
  unfold result
  constructor
  · intro h
    split at h
    · next label b hl => exact ⟨label, by rw [hl, Option.some.inj h]⟩
    · cases h
  · rintro ⟨label, hl⟩
    rw [hl]

theorem upcoming_of_performs {label : ι} {act : Act} {next : Res act → Prog Act Res α}
    (h : pool.Performs t label act next) : pool.upcoming t = some act := by
  rw [upcoming, show pool.tasks.lookup t = _ from h]

theorem performs_of_upcoming {act : Act} (h : pool.upcoming t = some act) :
    ∃ label next, pool.Performs t label act next := by
  rw [upcoming] at h
  split at h
  · next label act' next hl =>
    obtain rfl := Option.some.inj h
    exact ⟨label, next, hl⟩
  · cases h

theorem quiet_of_all (h : pool.tasks.entries.all (fun e => e.2.prog.isDone) = true) : pool.Quiet := by
  intro t task hl
  have hdone := List.all_eq_true.1 h _ (Assoc.mem_entries_iff.2 hl)
  obtain ⟨label, prog⟩ := task
  cases prog with
  | done a => exact ⟨a, rfl⟩
  | perform act next => cases hdone

theorem step_spawn {label : ι} (hl : pool.tasks.lookup t = none) :
    pool.step program sem (.spawn t label) = some { pool with tasks := pool.tasks.insert t ⟨label, program label⟩ } := by
  rw [step, hl]

theorem step_step {label : ι} {o : ω} {act : Act} {next : Res act → Prog Act Res α}
    (hl : pool.tasks.lookup t = some ⟨label, .perform act next⟩) :
    pool.step program sem (.step t o) = some ⟨(sem label o act pool.shared).2,
      pool.tasks.insert t ⟨label, next (sem label o act pool.shared).1⟩⟩ := by
  rw [step, hl]

theorem exists_finish {label : ι} {p : Prog Act Res α} (o : ω) (hl : pool.tasks.lookup t = some ⟨label, p⟩) :
    ∃ n pool', Run.exec (step program sem) pool (List.replicate n (.step t o)) = some pool' ∧
      pool'.shared = (p.eval (sem label o) pool.shared).2 ∧
      pool'.result t = some (p.eval (sem label o) pool.shared).1 ∧
      ∀ t' ≠ t, pool'.tasks.lookup t' = pool.tasks.lookup t' := by
  induction p generalizing pool with
  | done a => exact ⟨0, pool, rfl, rfl, result_eq_some.2 ⟨label, hl⟩, fun _ _ => rfl⟩
  | perform act next ih =>
    let r := sem label o act pool.shared
    let pool₁ : Pool σ ι Act Res α := ⟨r.2, pool.tasks.insert t ⟨label, next r.1⟩⟩
    have hl₁ : pool₁.tasks.lookup t = some ⟨label, next r.1⟩ := Assoc.lookup_insert_self
    obtain ⟨n, pool', hexec, hshared, hresult, hothers⟩ := ih r.1 hl₁
    refine ⟨n + 1, pool', ?_, hshared, hresult, fun t' ht =>
      (hothers t' ht).trans (Assoc.lookup_insert_eq.trans (if_neg ht))⟩
    rw [List.replicate_succ, Run.exec_cons, step_step hl]
    exact hexec

theorem exists_alone (label : ι) (o : ω) (hl : pool.tasks.lookup t = none) :
    ∃ n pool', Run.exec (step program sem) pool (.spawn t label :: List.replicate n (.step t o)) = some pool' ∧
      pool'.shared = ((program label).eval (sem label o) pool.shared).2 ∧
      pool'.result t = some ((program label).eval (sem label o) pool.shared).1 ∧
      ∀ t' ≠ t, pool'.tasks.lookup t' = pool.tasks.lookup t' := by
  let pool₁ : Pool σ ι Act Res α := { pool with tasks := pool.tasks.insert t ⟨label, program label⟩ }
  have hl₁ : pool₁.tasks.lookup t = some ⟨label, program label⟩ := Assoc.lookup_insert_self
  obtain ⟨n, pool', hexec, hshared, hresult, hothers⟩ := exists_finish o hl₁
  refine ⟨n, pool', ?_, hshared, hresult, fun t' ht =>
    (hothers t' ht).trans (Assoc.lookup_insert_eq.trans (if_neg ht))⟩
  rw [Run.exec_cons, step_spawn hl]
  exact hexec

theorem done_step {label : ι} {a : α} (hl : pool.tasks.lookup t = some ⟨label, .done a⟩)
    (hs : pool.step program sem input = some pool') : pool'.tasks.lookup t = some ⟨label, .done a⟩ := by
  rcases step_cases hs with ⟨t', label', rfl, hnew, rfl⟩ | ⟨t', o, label', act, next, rfl, hp, rfl⟩
  · have ht : t ≠ t' := by
      rintro rfl
      rw [hnew] at hl
      cases hl
    exact Assoc.lookup_insert_eq.trans ((if_neg ht).trans hl)
  · have ht : t ≠ t' := by
      rintro rfl
      rw [show pool.tasks.lookup t = _ from hp] at hl
      cases hl
    exact Assoc.lookup_insert_eq.trans ((if_neg ht).trans hl)

theorem done_exec {label : ι} {a : α} {inputs : List (Input ι ω)} (hl : pool.tasks.lookup t = some ⟨label, .done a⟩)
    (hexec : Run.exec (step program sem) pool inputs = some pool') :
    pool'.tasks.lookup t = some ⟨label, .done a⟩ :=
  Run.invariant_last (I := fun pool => pool.tasks.lookup t = some ⟨label, .done a⟩)
    (fun _ _ _ h hs => done_step h hs) hl hexec

/-- An action that a task performed, what it returned, and the state before and after. -/
structure Event (σ : Type) (ι : Type*) (Act : Type) (Res : Act → Type) where
  task : ℕ
  label : ι
  act : Act
  res : Res act
  before : σ
  after : σ

variable (program sem)

/-- The action that is performed when the input is taken. -/
def event (pool : Pool σ ι Act Res α) : Input ι ω → Option (Event σ ι Act Res)
  | .spawn _ _ => none
  | .step t o =>
    match pool.tasks.lookup t with
    | some ⟨label, .perform act _⟩ =>
      some ⟨t, label, act, (sem label o act pool.shared).1, pool.shared, (sem label o act pool.shared).2⟩
    | _ => none

/-- All actions that are performed in a run, in their order. -/
def trace : Pool σ ι Act Res α → List (Input ι ω) → List (Event σ ι Act Res)
  | _, [] => []
  | pool, input :: inputs =>
    match pool.step program sem input with
    | none => []
    | some pool' => (event sem pool input).toList ++ trace pool' inputs

variable {program sem}

theorem trace_concat {inputs : List (Input ι ω)} {last : Pool σ ι Act Res α}
    (hrun : Run.exec (step program sem) pool inputs = some pool')
    (hs : pool'.step program sem input = some last) :
    pool.trace program sem (inputs ++ [input]) = pool.trace program sem inputs ++ (pool'.event sem input).toList := by
  induction inputs generalizing pool with
  | nil =>
    cases hrun
    show trace program sem pool' [input] = _
    simp only [trace, hs, List.append_nil, List.nil_append]
  | cons a inputs ih =>
    obtain ⟨pool₁, hfirst, hrun⟩ := Run.exec_cons_eq_some.1 hrun
    rw [List.cons_append, trace, trace, hfirst]
    show _ ++ trace program sem pool₁ (inputs ++ [input]) = _ ++ trace program sem pool₁ inputs ++ _
    rw [ih hrun, List.append_assoc]

theorem allSteps_iff_trace {Q : Event σ ι Act Res → Prop} {inputs : List (Input ι ω)}
    (hrun : Run.exec (step program sem) pool inputs = some pool') :
    Run.AllSteps (step program sem) (fun p input => ∀ e, p.event sem input = some e → Q e) pool inputs ↔
      ∀ e ∈ pool.trace program sem inputs, Q e := by
  induction inputs generalizing pool with
  | nil => exact ⟨fun _ e he => (by cases he), fun _ => Run.allSteps_nil⟩
  | cons input inputs ih =>
    obtain ⟨pool₁, hfirst, hrun⟩ := Run.exec_cons_eq_some.1 hrun
    have htrace : pool.trace program sem (input :: inputs) =
        (pool.event sem input).toList ++ pool₁.trace program sem inputs := by
      rw [trace, hfirst]
    rw [Run.allSteps_cons, htrace]
    constructor
    · rintro ⟨hQ, h⟩ e he
      rcases List.mem_append.1 he with he | he
      · exact hQ e (Option.mem_toList.1 he)
      · exact (ih hrun).1 (h pool₁ hfirst) e he
    · intro h
      refine ⟨fun e he => h e (List.mem_append_left _ (Option.mem_toList.2 he)), fun pool₂ hs => ?_⟩
      rw [hfirst] at hs
      cases hs
      exact (ih hrun).2 fun e he => h e (List.mem_append_right _ he)

theorem allSpans_iff_trace {R : σ → σ → Prop} (hrefl : ∀ s, R s s) (htrans : ∀ s t u, R s t → R t u → R s u)
    {inputs : List (Input ι ω)} (hrun : Run.exec (step program sem) pool inputs = some pool') :
    Run.AllSpans (step program sem) (fun p q => R p.shared q.shared) pool inputs ↔
      ∀ e ∈ pool.trace program sem inputs, R e.before e.after := by
  rw [← allSteps_iff_trace hrun]
  refine Run.allSpans_iff_allSteps (R := fun p q => R p.shared q.shared) (fun p => hrefl p.shared)
    (fun p q r => htrans _ _ _) (fun p input q hs => ?_) hrun
  rcases step_cases hs with ⟨t, label, rfl, -, rfl⟩ | ⟨t, o, label, act, next, rfl, hp, rfl⟩
  · exact ⟨fun _ e he => (by cases he), fun _ => hrefl _⟩
  · have hevent : p.event sem (.step t o) = some ⟨t, label, act, (sem label o act p.shared).1, p.shared,
        (sem label o act p.shared).2⟩ := by
      rw [event, show p.tasks.lookup t = _ from hp]
    rw [hevent]
    constructor
    · rintro hR e he
      cases he
      exact hR
    · exact fun h => h _ rfl

/-- What holds at the start, and is kept by everything a task does, holds at the end of a run. -/
theorem trace_invariant {P : List (Event σ ι Act Res) → Pool σ ι Act Res α → Prop} {inputs : List (Input ι ω)}
    (hspawn : ∀ es pool t label, P es pool → pool.tasks.lookup t = none →
      P es { pool with tasks := pool.tasks.insert t ⟨label, program label⟩ })
    (hact : ∀ es pool t o label act next, P es pool → pool.Performs t label act next →
      P (es ++ [⟨t, label, act, (sem label o act pool.shared).1, pool.shared, (sem label o act pool.shared).2⟩])
        ⟨(sem label o act pool.shared).2, pool.tasks.insert t ⟨label, next (sem label o act pool.shared).1⟩⟩)
    (hstart : P [] pool) (hrun : Run.exec (step program sem) pool inputs = some pool') :
    P (pool.trace program sem inputs) pool' := by
  induction inputs using List.reverseRecOn generalizing pool' with
  | nil => cases hrun; exact hstart
  | append_singleton inputs input ih =>
    obtain ⟨pool₁, hexec, hlast⟩ := Option.bind_eq_some_iff.1 (Run.exec_append.symm.trans hrun)
    rw [Run.exec_singleton] at hlast
    rw [trace_concat hexec hlast]
    clear hrun
    rcases step_cases hlast with ⟨t, label, rfl, hl, rfl⟩ | ⟨t, o, label, act, next, rfl, hp, rfl⟩
    · rw [event, Option.toList_none, List.append_nil]
      exact hspawn _ _ t label (ih hexec) hl
    · have hevent : pool₁.event sem (.step t o) = some ⟨t, label, act, (sem label o act pool₁.shared).1, pool₁.shared,
          (sem label o act pool₁.shared).2⟩ := by
        rw [event, show pool₁.tasks.lookup t = _ from hp]
      rw [hevent]
      exact hact _ _ t o label act next (ih hexec) hp

/-- The rule for what is said of the shared state alone, in a run whose events all meet `Q`. It holds at the end, and
before every event. -/
theorem shared_invariant {I : List (Event σ ι Act Res) → σ → Prop}
    {Q : List (Event σ ι Act Res) → Event σ ι Act Res → Prop} {inputs : List (Input ι ω)}
    (hact : ∀ es s t label o act, I es s → Q es ⟨t, label, act, (sem label o act s).1, s, (sem label o act s).2⟩ →
      I (es ++ [⟨t, label, act, (sem label o act s).1, s, (sem label o act s).2⟩]) (sem label o act s).2)
    (hQ : Run.Each Q (pool.trace program sem inputs)) (hstart : I [] pool.shared)
    (hrun : Run.exec (step program sem) pool inputs = some pool') :
    I (pool.trace program sem inputs) pool'.shared ∧
      Run.Each (fun older e => I older e.before) (pool.trace program sem inputs) := by
  refine trace_invariant (P := fun events pool => Run.Each Q events →
      I events pool.shared ∧ Run.Each (fun older e => I older e.before) events)
    (fun events pool t label h _ => h) (fun events pool t o label act next h _ hQ => ?_)
    (fun _ => ⟨hstart, Run.each_nil⟩) hrun hQ
  obtain ⟨hQ, hlast⟩ := Run.each_concat.1 hQ
  obtain ⟨hI, hbefore⟩ := h hQ
  exact ⟨hact events pool.shared t label o act hI hlast, Run.each_concat.2 ⟨hbefore, hI⟩⟩

theorem sem_of_run {inputs : List (Input ι ω)} (hrun : Run.exec (step program sem) pool inputs = some pool') :
    ∀ e ∈ pool.trace program sem inputs, ∃ o, e.res = (sem e.label o e.act e.before).1 ∧
      e.after = (sem e.label o e.act e.before).2 := by
  refine trace_invariant (P := fun events _ => ∀ e ∈ events, ∃ o, e.res = (sem e.label o e.act e.before).1 ∧
      e.after = (sem e.label o e.act e.before).2)
    (fun events pool t label h _ => h) (fun events pool t o label act next h _ e he => ?_)
    (fun e he => (by cases he)) hrun
  rcases List.mem_append.1 he with he | he
  · exact h e he
  · rw [List.mem_singleton.1 he]
    exact ⟨o, rfl, rfl⟩

theorem trace_append {inputs inputs' : List (Input ι ω)} (hrun : Run.exec (step program sem) pool inputs = some pool') :
    pool.trace program sem (inputs ++ inputs') = pool.trace program sem inputs ++ pool'.trace program sem inputs' := by
  induction inputs generalizing pool with
  | nil =>
    cases hrun
    rfl
  | cons a inputs ih =>
    obtain ⟨pool₁, hfirst, hrun⟩ := Run.exec_cons_eq_some.1 hrun
    rw [List.cons_append, trace, trace, hfirst]
    show _ ++ trace program sem pool₁ (inputs ++ inputs') = _ ++ trace program sem pool₁ inputs ++ _
    rw [ih hrun, List.append_assoc]

theorem task_of_event {inputs : List (Input ι ω)} (hrun : Run.exec (step program sem) pool inputs = some pool') :
    ∀ e ∈ pool.trace program sem inputs, ∃ prog, pool'.tasks.lookup e.task = some ⟨e.label, prog⟩ := by
  refine trace_invariant (P := fun events pool => ∀ e ∈ events, ∃ prog, pool.tasks.lookup e.task = some ⟨e.label, prog⟩)
    (fun events pool t label h hnone e he => ?_) (fun events pool t o label act next h hp e he => ?_)
    (fun e he => (by cases he)) hrun
  · obtain ⟨prog, hl⟩ := h e he
    have ht : e.task ≠ t := by
      rintro rfl
      rw [hnone] at hl
      cases hl
    exact ⟨prog, Assoc.lookup_insert_eq.trans ((if_neg ht).trans hl)⟩
  · rcases List.mem_append.1 he with he | he
    · obtain ⟨prog, hl⟩ := h e he
      by_cases ht : e.task = t
      · rw [ht, show pool.tasks.lookup t = _ from hp] at hl
        cases hl
        exact ⟨_, Assoc.lookup_insert_eq.trans (if_pos ht)⟩
      · exact ⟨prog, Assoc.lookup_insert_eq.trans ((if_neg ht).trans hl)⟩
    · rw [List.mem_singleton.1 he]
      exact ⟨_, Assoc.lookup_insert_self⟩

/-- What the task `t` performed. -/
def performed (events : List (Event σ ι Act Res)) (t : ℕ) : List (Sigma Res) :=
  (events.filter fun e => e.task = t).map fun e => ⟨e.act, e.res⟩

theorem performed_concat {events : List (Event σ ι Act Res)} {e : Event σ ι Act Res} :
    performed (events ++ [e]) t = performed events t ++ if e.task = t then [⟨e.act, e.res⟩] else [] := by
  unfold performed
  rw [List.filter_append, List.map_append]
  split
  · next ht => rw [List.filter_cons_of_pos (by simpa using ht)]; rfl
  · next ht => rw [List.filter_cons_of_neg (by simpa using ht)]; rfl

/-- The last event of the task `t`. -/
def lastOf (events : List (Event σ ι Act Res)) (t : ℕ) : Option (Event σ ι Act Res) :=
  (events.filter fun e => e.task = t).getLast?

theorem getLast?_performed {events : List (Event σ ι Act Res)} :
    (performed events t).getLast? = (lastOf events t).map fun e => ⟨e.act, e.res⟩ := List.getLast?_map

theorem lastOf_concat {events : List (Event σ ι Act Res)} {e : Event σ ι Act Res} :
    lastOf (events ++ [e]) t = if e.task = t then some e else lastOf events t := by
  unfold lastOf
  rw [List.filter_append]
  split
  · next ht => rw [List.filter_cons_of_pos (by simpa using ht), List.filter_nil, List.getLast?_concat]
  · next ht => rw [List.filter_cons_of_neg (by simpa using ht), List.filter_nil, List.append_nil]

theorem mem_of_lastOf {events : List (Event σ ι Act Res)} {e : Event σ ι Act Res} (h : lastOf events t = some e) :
    e ∈ events := (List.mem_filter.1 (List.mem_of_getLast? h)).1

theorem length_le_countP {events : List (Event σ ι Act Res)} {p : Event σ ι Act Res → Bool} {ts : List ℕ}
    (hts : ts.Nodup) (h : ∀ t ∈ ts, ∃ e ∈ events, e.task = t ∧ p e = true) : ts.length ≤ events.countP p := by
  have hsubset : ts ⊆ (events.filter p).map (·.task) := by
    intro t ht
    obtain ⟨e, he, htask, hp⟩ := h t ht
    exact List.mem_map.2 ⟨e, List.mem_filter.2 ⟨he, hp⟩, htask⟩
  have hle := (List.subperm_of_subset hts hsubset).length_le
  rw [List.length_map, ← List.countP_eq_length_filter] at hle
  exact hle

theorem mem_performed {events : List (Event σ ι Act Res)} {x : Sigma Res} :
    x ∈ performed events t ↔ ∃ e ∈ events, e.task = t ∧ (⟨e.act, e.res⟩ : Sigma Res) = x := by
  unfold performed
  simp only [List.mem_map, List.mem_filter, decide_eq_true_eq, and_assoc]

theorem exists_of_performed {events : List (Event σ ι Act Res)} {xs ys : List (Sigma Res)} {x : Sigma Res}
    (h : performed events t = xs ++ x :: ys) : ∃ before e after, events = before ++ e :: after ∧ e.task = t ∧
      (⟨e.act, e.res⟩ : Sigma Res) = x ∧ performed after t = ys := by
  induction events generalizing xs with
  | nil => cases xs <;> cases h
  | cons e events ih =>
    by_cases ht : e.task = t
    · have hcons : performed (e :: events) t = ⟨e.act, e.res⟩ :: performed events t := by
        rw [performed, List.filter_cons_of_pos (by simpa using ht)]
        rfl
      rw [hcons] at h
      cases xs with
      | nil =>
        obtain ⟨hx, hys⟩ := List.cons.inj h
        exact ⟨[], e, events, rfl, ht, hx, hys⟩
      | cons y xs =>
        obtain ⟨before, e', after, rfl, he'⟩ := ih (List.cons.inj h).2
        exact ⟨e :: before, e', after, rfl, he'⟩
    · have hcons : performed (e :: events) t = performed events t := by
        rw [performed, List.filter_cons_of_neg (by simpa using ht)]
        rfl
      obtain ⟨before, e', after, rfl, he'⟩ := ih (hcons.symm.trans h)
      exact ⟨e :: before, e', after, rfl, he'⟩

theorem remains_of_run {s : σ} {inputs : List (Input ι ω)}
    (hrun : Run.exec (step program sem) (start s) inputs = some pool') {label : ι} {prog : Prog Act Res α}
    (hl : pool'.tasks.lookup t = some ⟨label, prog⟩) :
    (program label).Remains (performed ((start s).trace program sem inputs) t) prog := by
  have hinv := trace_invariant (P := fun events pool =>
      (∀ t, pool.tasks.lookup t = none → performed events t = []) ∧
        ∀ t label prog, pool.tasks.lookup t = some ⟨label,
          prog⟩ → (program label).Remains (performed events t) prog)
    (fun events pool t₀ label₀ h hnone => ?_) (fun events pool t₀ o label₀ act next h hp => ?_)
    ⟨fun _ _ => rfl, fun _ _ _ hl => by simp at hl⟩ hrun
  · exact hinv.2 t label prog hl
  · refine ⟨fun t ht => h.1 t ?_, fun t label prog hl => ?_⟩
    · rw [Assoc.lookup_insert_eq] at ht
      split at ht
      · cases ht
      · exact ht
    · rcases Assoc.lookup_insert_cases hl with ⟨rfl, heq⟩ | ⟨-, hl⟩
      · cases heq
        rw [h.1 t hnone]
        exact Prog.remains_self _
      · exact h.2 t label prog hl
  · refine ⟨fun t ht => ?_, fun t label prog hl => ?_⟩
    · rw [Assoc.lookup_insert_eq] at ht
      split at ht
      · cases ht
      · next hne => rw [performed_concat, if_neg (Ne.symm hne), List.append_nil, h.1 t ht]
    · rw [performed_concat]
      rcases Assoc.lookup_insert_cases hl with ⟨rfl, heq⟩ | ⟨hne, hl⟩
      · cases heq
        rw [if_pos rfl]
        exact (h.2 t _ _ hp).concat _
      · rw [if_neg (Ne.symm hne), List.append_nil]
        exact h.2 t label prog hl

theorem path_of_run {s : σ} {inputs : List (Input ι ω)}
    (hrun : Run.exec (step program sem) (start s) inputs = some pool') {label : ι} {a : α}
    (hl : pool'.tasks.lookup t = some ⟨label, .done a⟩) :
    (program label).Path (performed ((start s).trace program sem inputs) t) a :=
  (remains_of_run hrun hl).path

theorem follows_of_run {s : σ} {inputs : List (Input ι ω)} {W : ι → List (Sigma Res) → Act → Prop}
    (h : ∀ label, (program label).Follows (W label) [])
    (hrun : Run.exec (step program sem) (start s) inputs = some pool') :
    Run.Each (fun older e => W e.label (performed older e.task) e.act) ((start s).trace program sem inputs) := by
  refine (trace_invariant (P := fun events pool =>
      Run.Each (fun older (e : Event σ ι Act Res) => W e.label (performed older e.task) e.act) events ∧
      (∀ t, pool.tasks.lookup t = none → performed events t = []) ∧
        ∀ t label prog, pool.tasks.lookup t = some ⟨label,
          prog⟩ → prog.Follows (W label) (performed events t))
    (fun events pool t₀ label₀ hp hnone => ?_) (fun events pool t₀ o label₀ act next hp hperforms => ?_)
    ⟨Run.each_nil, fun _ _ => rfl, fun _ _ _ hl => by simp at hl⟩ hrun).1
  · refine ⟨hp.1, fun t ht => hp.2.1 t ?_, fun t label prog hl => ?_⟩
    · rw [Assoc.lookup_insert_eq] at ht
      split at ht
      · cases ht
      · exact ht
    · rcases Assoc.lookup_insert_cases hl with ⟨rfl, heq⟩ | ⟨-, hl⟩
      · cases heq
        rw [hp.2.1 t hnone]
        exact h _
      · exact hp.2.2 t label prog hl
  · obtain ⟨hW, hnext⟩ := hp.2.2 t₀ label₀ _ hperforms
    refine ⟨Run.each_concat.2 ⟨hp.1, hW⟩, fun t ht => ?_, fun t label prog hl => ?_⟩
    · rw [Assoc.lookup_insert_eq] at ht
      split at ht
      · cases ht
      · next hne => rw [performed_concat, if_neg (Ne.symm hne), List.append_nil, hp.2.1 t ht]
    · rw [performed_concat]
      rcases Assoc.lookup_insert_cases hl with ⟨rfl, heq⟩ | ⟨hne, hl⟩
      · cases heq
        rw [if_pos rfl]
        exact hnext _
      · rw [if_neg (Ne.symm hne), List.append_nil]
        exact hp.2.2 t label prog hl

theorem guar_of_run {s : σ} {inputs : List (Input ι ω)} {guar : Act → Prop} {rely : (act : Act) → Res act → Prop}
    (hact : ∀ label o act s, guar act → rely act (sem label o act s).1)
    (hsafe : ∀ label, (program label).Safe guar rely fun _ => True)
    (hrun : Run.exec (step program sem) (start s) inputs = some pool') :
    ∀ e ∈ (start s).trace program sem inputs, guar e.act := by
  refine (trace_invariant (P := fun events pool => (∀ e ∈ events, guar e.act) ∧
      ∀ t task, pool.tasks.lookup t = some task → task.prog.Safe guar rely fun _ => True)
    (fun events pool t label h _ => ⟨h.1, fun t' task hl => ?_⟩)
    (fun events pool t o label act next h hp => ?_) ⟨fun e he => (by cases he),
    fun t task hl => by simp at hl⟩ hrun).1
  · rcases Assoc.lookup_insert_cases hl with ⟨-, rfl⟩ | ⟨-, hl⟩
    · exact hsafe label
    · exact h.2 t' task hl
  · obtain ⟨hg, hnext⟩ := h.2 t _ hp
    refine ⟨fun e he => ?_, fun t' task hl => ?_⟩
    · rcases List.mem_append.1 he with he | he
      · exact h.1 e he
      · rw [List.mem_singleton.1 he]
        exact hg
    · rcases Assoc.lookup_insert_cases hl with ⟨-, rfl⟩ | ⟨-, hl⟩
      · exact hnext _ (hact label o act pool.shared hg)
      · exact h.2 t' task hl

/-! ### The rule for safe programs -/

section Guarded

variable {guar : Act → Prop} {rely : (act : Act) → Res act → Prop} {post : α → Prop} {I : σ → Prop}
    {old : ℕ → Prop}

/-- The invariant holds, and every task is safe but those in `old`, which are done. -/
structure Guarded (old : ℕ → Prop) (I : σ → Prop) (guar : Act → Prop) (rely : (act : Act) → Res act → Prop)
    (post : α → Prop) (pool : Pool σ ι Act Res α) : Prop where
  shared : I pool.shared
  ended : ∀ t, old t → ∃ a, pool.result t = some a
  tasks : ∀ t task, ¬ old t → pool.tasks.lookup t = some task → task.prog.Safe guar rely post

theorem Guarded.result {a : α} (h : pool.Guarded old I guar rely post) (ht : ¬ old t) (hr : pool.result t = some a) :
    post a := by
  obtain ⟨label, hl⟩ := result_eq_some.1 hr
  exact h.tasks t _ ht hl

theorem guarded_step (hact : ∀ label o act s, guar act → I s →
      rely act (sem label o act s).1 ∧ I (sem label o act s).2)
    (hspawn : ∀ t label, input = .spawn t label → (program label).Safe guar rely post)
    (hg : pool.Guarded old I guar rely post) (hs : pool.step program sem input = some pool') :
    pool'.Guarded old I guar rely post := by
  have hold : ∀ t, old t → ∃ a, pool'.result t = some a := by
    intro t ht
    obtain ⟨a, ha⟩ := hg.ended t ht
    obtain ⟨label, hl⟩ := result_eq_some.1 ha
    exact ⟨a, result_eq_some.2 ⟨label, done_step hl hs⟩⟩
  rcases step_cases hs with ⟨t, label, rfl, -, rfl⟩ | ⟨t, o, label, act, next, rfl, hp, rfl⟩
  · refine ⟨hg.shared, hold, fun t' task ht' hl => ?_⟩
    rcases Assoc.lookup_insert_cases hl with ⟨-, rfl⟩ | ⟨-, hl⟩
    · exact hspawn t label rfl
    · exact hg.tasks t' task ht' hl
  · have ht : ¬ old t := by
      intro ht
      obtain ⟨a, ha⟩ := hg.ended t ht
      obtain ⟨label', hl⟩ := result_eq_some.1 ha
      rw [show pool.tasks.lookup t = _ from hp] at hl
      cases hl
    have hsafe := hg.tasks t _ ht hp
    obtain ⟨hr, hI⟩ := hact label o act pool.shared hsafe.1 hg.shared
    refine ⟨hI, hold, fun t' task ht' hl => ?_⟩
    rcases Assoc.lookup_insert_cases hl with ⟨-, rfl⟩ | ⟨-, hl⟩
    · exact hsafe.2 _ hr
    · exact hg.tasks t' task ht' hl

end Guarded

/-! ### The rule for ghost states -/

section Shadowed

variable {γ : Type} {may : ι → γ → Act → Prop} {upd : γ → (act : Act) → Res act → γ} {post : α → γ → Prop} {g₀ : γ}
    {I : Pool σ ι Act Res α → (ℕ → γ) → Prop} {P : Pool σ ι Act Res α → Input ι ω → Prop}

/-- Every task goes on as its ghost state allows. -/
def Shadowed (may : ι → γ → Act → Prop) (upd : γ → (act : Act) → Res act → γ) (post : α → γ → Prop)
    (pool : Pool σ ι Act Res α) (ghost : ℕ → γ) : Prop :=
  ∀ t task, pool.tasks.lookup t = some task → task.prog.Ghost (may task.label) upd post (ghost t)

theorem Shadowed.result {ghost : ℕ → γ} {a : α} (h : pool.Shadowed may upd post ghost) (hr : pool.result t = some a) :
    post a (ghost t) := by
  obtain ⟨label, hl⟩ := result_eq_some.1 hr
  exact h t _ hl

theorem Shadowed.insert {ghost : ℕ → γ} (h : pool.Shadowed may upd post ghost) (shared : σ) (t : ℕ)
    {task : Task ι Act Res α} {g : γ} (htask : task.prog.Ghost (may task.label) upd post g) :
    Shadowed may upd post ⟨shared, pool.tasks.insert t task⟩ (Function.update ghost t g) := by
  intro t' task' hl
  rcases Assoc.lookup_insert_cases hl with ⟨rfl, rfl⟩ | ⟨hne, hl⟩
  · rw [Function.update_self]
    exact htask
  · rw [Function.update_of_ne hne]
    exact h t' task' hl

/-- What holds of the pool with the ghost states of its tasks, and is kept by everything a task may do. -/
theorem shadowed_step (hprogram : ∀ label, (program label).Ghost (may label) upd post g₀)
    (hspawn : ∀ pool ghost t label, I pool ghost → pool.tasks.lookup t = none →
      I { pool with tasks := pool.tasks.insert t ⟨label, program label⟩ } (Function.update ghost t g₀))
    (hact : ∀ pool ghost t o label act next, I pool ghost → pool.Performs t label act next → may label (ghost t) act →
      (∀ r, (next r).Ghost (may label) upd post (upd (ghost t) act r)) → P pool (.step t o) →
      I ⟨(sem label o act pool.shared).2, pool.tasks.insert t ⟨label, next (sem label o act pool.shared).1⟩⟩
        (Function.update ghost t (upd (ghost t) act (sem label o act pool.shared).1)))
    (h : ∃ ghost, pool.Shadowed may upd post ghost ∧ I pool ghost) (hP : P pool input)
    (hs : pool.step program sem input = some pool') : ∃ ghost, pool'.Shadowed may upd post ghost ∧ I pool' ghost := by
  obtain ⟨ghost, hghost, hI⟩ := h
  rcases step_cases hs with ⟨t, label, rfl, hnew, rfl⟩ | ⟨t, o, label, act, next, rfl, hp, rfl⟩
  · exact ⟨_, hghost.insert pool.shared t (hprogram label), hspawn pool ghost t label hI hnew⟩
  · obtain ⟨hmay, hnext⟩ := hghost t _ hp
    exact ⟨_, hghost.insert _ t (hnext _), hact pool ghost t o label act next hI hp hmay hnext hP⟩

theorem shadowed_trace {I : List (Event σ ι Act Res) → Pool σ ι Act Res α → (ℕ → γ) → Prop}
    {Q : List (Event σ ι Act Res) → Event σ ι Act Res → Prop} {s : σ} {inputs : List (Input ι ω)}
    (hprogram : ∀ label, (program label).Ghost (may label) upd post g₀)
    (hspawn : ∀ events pool ghost t label, I events pool ghost → pool.tasks.lookup t = none →
      I events { pool with tasks := pool.tasks.insert t ⟨label, program label⟩ } (Function.update ghost t g₀))
    (hact : ∀ events pool ghost t o label act next, I events pool ghost → pool.Performs t label act next →
      may label (ghost t) act →
      Q events ⟨t, label, act, (sem label o act pool.shared).1, pool.shared, (sem label o act pool.shared).2⟩ →
      I (events ++ [⟨t, label, act, (sem label o act pool.shared).1, pool.shared, (sem label o act pool.shared).2⟩])
        ⟨(sem label o act pool.shared).2, pool.tasks.insert t ⟨label, next (sem label o act pool.shared).1⟩⟩
        (Function.update ghost t (upd (ghost t) act (sem label o act pool.shared).1)))
    (hstart : I [] (start s) fun _ => g₀) (hQ : Run.Each Q ((start s).trace program sem inputs))
    (hrun : Run.exec (step program sem) (start s) inputs = some pool') :
    ∃ ghost, pool'.Shadowed may upd post ghost ∧ I ((start s).trace program sem inputs) pool' ghost := by
  refine trace_invariant (P := fun events pool => Run.Each Q events →
      ∃ ghost, pool.Shadowed may upd post ghost ∧ I events pool ghost)
    (fun events pool t label h hnone hQ => ?_) (fun events pool t o label act next h hp hQ => ?_)
    (fun _ => ⟨fun _ => g₀, fun t task hl => by simp at hl, hstart⟩) hrun hQ
  · obtain ⟨ghost, hghost, hI⟩ := h hQ
    exact ⟨_, hghost.insert pool.shared t (hprogram label), hspawn events pool ghost t label hI hnone⟩
  · obtain ⟨hQ, hlast⟩ := Run.each_concat.1 hQ
    obtain ⟨ghost, hghost, hI⟩ := h hQ
    obtain ⟨hmay, hnext⟩ := hghost t _ hp
    exact ⟨_, hghost.insert _ t (hnext _), hact events pool ghost t o label act next hI hp hmay hlast⟩

end Shadowed

end Pool
