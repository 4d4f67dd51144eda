import Mathlib.Logic.Function.Basic

/-!
# Effectful programs and their obligations

A library layer, independent of the proxy. Three notions:

* `Prog Op Res` — **program syntax**: the free monad over a signature of operations `o : Op`, each
  answered by a `Res o`. An `async fn` becomes such a tree, one node for every point where it
  touches shared state; what happens between two nodes is pure.
* `Protocol` — a **local contract**: in a ghost state `g`, which operations the program may perform
  (`owes`) and which answers and next ghost states it has to be prepared for (`step`).
* `Prog.wp` — the **weakest precondition** of a program under a protocol: every operation it ever
  performs is paid for, and every way it can end satisfies the postcondition.

`Prog.runWith` interprets a program against a state-passing handler. It is structural recursion, so
closed runs evaluate.
-/

namespace TurbineProxy

/-- Program syntax: the free monad over the operations `Op` with answers `Res`.

* `done a` — return `a`.
* `op o k` — perform `o`, continue with `k` on the answer. -/
inductive Prog (Op : Type) (Res : Op → Type) (α : Type) : Type where
  /-- return a value -/
  | done : α → Prog Op Res α
  /-- perform an operation and continue with its answer -/
  | op : (o : Op) → (Res o → Prog Op Res α) → Prog Op Res α

namespace Prog

variable {Op : Type} {Res : Op → Type} {α β γ : Type}

/-- Graft a continuation onto every `done` leaf. -/
protected def bind : Prog Op Res α → (α → Prog Op Res β) → Prog Op Res β
  | done a, f => f a
  | op o k, f => op o fun r => (k r).bind f

instance : Monad (Prog Op Res) where
  pure := done
  bind := Prog.bind

/-- The program that performs one operation and returns its answer. -/
def perform (o : Op) : Prog Op Res (Res o) := op o done

@[simp] theorem pure_eq (a : α) : (pure a : Prog Op Res α) = done a := rfl

@[simp] theorem done_bind (a : α) (f : α → Prog Op Res β) : done a >>= f = f a := rfl

@[simp] theorem op_bind (o : Op) (k : Res o → Prog Op Res α) (f : α → Prog Op Res β) :
    op o k >>= f = op o fun r => k r >>= f := rfl

/-! ## Interpretation -/

/-- Run a program against a handler that threads a state of type `S` and answers every operation. -/
def runWith {S : Type} (h : S → (o : Op) → S × Res o) : Prog Op Res α → S → S × α
  | done a, s => (s, a)
  | op o k, s => (k (h s o).2).runWith h (h s o).1

@[simp] theorem runWith_done {S : Type} (h : S → (o : Op) → S × Res o) (a : α) (s : S) :
    (done a : Prog Op Res α).runWith h s = (s, a) := rfl

@[simp] theorem runWith_op {S : Type} (h : S → (o : Op) → S × Res o) (o : Op)
    (k : Res o → Prog Op Res α) (s : S) :
    (op o k).runWith h s = (k (h s o).2).runWith h (h s o).1 := rfl

@[simp] theorem runWith_perform {S : Type} (h : S → (o : Op) → S × Res o) (o : Op) (s : S) :
    (perform o : Prog Op Res (Res o)).runWith h s = h s o := rfl

/-- Sequencing runs the first program, then the second from the state it left. -/
@[simp] theorem runWith_bind {S : Type} (h : S → (o : Op) → S × Res o) (p : Prog Op Res α)
    (f : α → Prog Op Res β) (s : S) :
    (p >>= f).runWith h s = (f (p.runWith h s).2).runWith h (p.runWith h s).1 := by
  induction p generalizing s with
  | done a => rfl
  | op o k ih => exact ih _ _

end Prog

/-!
## Protocols and weakest preconditions

A protocol says for each operation what is owed before it and what may be the state behind it. The weakest precondition
of a program is computed along its operations.
-/

/-- A local contract over ghost states `Γ`: `owes g o` is what a program must establish before it
performs `o`, `step g o r g'` what it may assume of the answer `r` and the ghost state `g'` that
follows. -/
structure Protocol (Op : Type) (Res : Op → Type) (Γ : Type) where
  /-- the obligation before an operation -/
  owes : Γ → Op → Prop
  /-- the answers and successors the program must be prepared for -/
  step : Γ → (o : Op) → Res o → Γ → Prop

/-- The contract that asks for nothing. -/
def Protocol.free {Op : Type} {Res : Op → Type} {Γ : Type} : Protocol Op Res Γ where
  owes _ _ := True
  step _ _ _ _ := True

/-- Two contracts at once. -/
def Protocol.both {Op : Type} {Res : Op → Type} {Γ Γ' : Type} (P : Protocol Op Res Γ) (P' : Protocol Op Res Γ') :
    Protocol Op Res (Γ × Γ') where
  owes g o := P.owes g.1 o ∧ P'.owes g.2 o
  step g o r g' := P.step g.1 o r g'.1 ∧ P'.step g.2 o r g'.2

namespace Prog

variable {Op : Type} {Res : Op → Type} {Γ α β : Type}

/-- Weakest precondition: from ghost state `g`, every operation the program performs meets its
obligation and every outcome satisfies `Q`. -/
def wp (P : Protocol Op Res Γ) : Prog Op Res α → (α → Γ → Prop) → Γ → Prop
  | done a, Q, g => Q a g
  | op o k, Q, g => P.owes g o ∧ ∀ r g', P.step g o r g' → (k r).wp P Q g'

variable {P : Protocol Op Res Γ}

@[simp] theorem wp_done (a : α) (Q : α → Γ → Prop) (g : Γ) :
    (done a : Prog Op Res α).wp P Q g = Q a g := rfl

@[simp] theorem wp_op (o : Op) (k : Res o → Prog Op Res α) (Q : α → Γ → Prop) (g : Γ) :
    (op o k).wp P Q g = (P.owes g o ∧ ∀ r g', P.step g o r g' → (k r).wp P Q g') := rfl

@[simp] theorem wp_perform (o : Op) (Q : Res o → Γ → Prop) (g : Γ) :
    (perform o : Prog Op Res (Res o)).wp P Q g =
      (P.owes g o ∧ ∀ r g', P.step g o r g' → Q r g') := rfl

/-- Weakest preconditions compose along sequencing. -/
@[simp] theorem wp_bind (p : Prog Op Res α) (f : α → Prog Op Res β) (Q : β → Γ → Prop) (g : Γ) :
    (p >>= f).wp P Q g = p.wp P (fun a g' => (f a).wp P Q g') g := by
  induction p generalizing g with
  | done a => rfl
  | op o k ih =>
    simp only [op_bind, wp_op]
    refine congrArg (P.owes g o ∧ ·) (propext ?_)
    constructor
    · intro h r g' hs
      rw [← ih]
      exact h r g' hs
    · intro h r g' hs
      rw [ih]
      exact h r g' hs

/-- A program that meets a postcondition meets every weaker one. -/
theorem wp_mono {p : Prog Op Res α} {Q Q' : α → Γ → Prop} {g : Γ}
    (hp : p.wp P Q g) (hQ : ∀ a g', Q a g' → Q' a g') : p.wp P Q' g := by
  induction p generalizing g with
  | done a => exact hQ a g hp
  | op o k ih => exact ⟨hp.1, fun r g' hs => ih r (hp.2 r g' hs)⟩

/-- A conditional is verified branch by branch. -/
theorem wp_ite {c : Prop} [Decidable c] {p q : Prog Op Res α} {Q : α → Γ → Prop} {g : Γ}
    (hp : c → p.wp P Q g) (hq : ¬c → q.wp P Q g) : (if c then p else q).wp P Q g := by
  by_cases h : c
  · rw [if_pos h]
    exact hp h
  · rw [if_neg h]
    exact hq h

/-- The first branch may come back to the second one. -/
theorem wp_ite_else {c : Prop} [Decidable c] {p q : Prog Op Res α} {Q : α → Γ → Prop} {g : Γ}
    (hp : q.wp P Q g → p.wp P Q g) (hq : q.wp P Q g) : (if c then p else q).wp P Q g :=
  wp_ite (fun _ => hp hq) fun _ => hq

/-- A handler whose answers the protocol foresees takes a program from `I`-related states to `I`-related
states, and to a result that satisfies the postcondition. -/
theorem wp_runWith {S : Type} {h : S → (o : Op) → S × Res o} {I : S → Γ → Prop}
    (hI : ∀ s g o, I s g → P.owes g o → ∃ g', P.step g o (h s o).2 g' ∧ I (h s o).1 g')
    {p : Prog Op Res α} {Q : α → Γ → Prop} {s : S} {g : Γ} (hp : p.wp P Q g) (hs : I s g) :
    ∃ g', Q (p.runWith h s).2 g' ∧ I (p.runWith h s).1 g' := by
  induction p generalizing s g with
  | done a => exact ⟨g, hp, hs⟩
  | op o k ih =>
    obtain ⟨g', hstep, hs'⟩ := hI s g o hs hp.1
    exact ih _ (hp.2 _ g' hstep) hs'

/-- A program that meets one contract meets every other one that asks for less: obligations of the
second follow from those of the first, and its steps are steps of the first. -/
theorem wp_transfer {Γ' : Type} (P' : Protocol Op Res Γ') (R : Γ → Γ' → Prop)
    (howes : ∀ g g' o, R g g' → P.owes g o → P'.owes g' o)
    (hstep : ∀ g g' o r h', R g g' → P.owes g o → P'.step g' o r h' → ∃ h, P.step g o r h ∧ R h h')
    {p : Prog Op Res α} {Q : α → Γ → Prop} {g : Γ} {g' : Γ'} (hp : p.wp P Q g) (hR : R g g') :
    p.wp P' (fun a h' => ∃ h, Q a h ∧ R h h') g' := by
  induction p generalizing g g' with
  | done a => exact ⟨g, hp, hR⟩
  | op o k ih =>
    refine ⟨howes g g' o hR hp.1, fun r h' hs => ?_⟩
    obtain ⟨h, hs', hR'⟩ := hstep g g' o r h' hR hp.1 hs
    exact ih r (hp.2 r h hs') hR'

/-- Every program meets the contract that asks for nothing. -/
theorem wp_free (p : Prog Op Res α) (g : Γ) : p.wp .free (fun _ _ => True) g := by
  induction p generalizing g with
  | done a => trivial
  | op o k ih => exact ⟨trivial, fun r g' _ => ih r g'⟩

/-- A program that meets two contracts meets them at once. -/
theorem wp_both {Γ' : Type} {P' : Protocol Op Res Γ'} {p : Prog Op Res α} {Q : α → Γ → Prop} {Q' : α → Γ' → Prop}
    {g : Γ} {g' : Γ'} (hp : p.wp P Q g) (hp' : p.wp P' Q' g') :
    p.wp (P.both P') (fun a h => Q a h.1 ∧ Q' a h.2) (g, g') := by
  induction p generalizing g g' with
  | done a => exact ⟨hp, hp'⟩
  | op o k ih => exact ⟨⟨hp.1, hp'.1⟩, fun r h hs => ih r (hp.2 r h.1 hs.1) (hp'.2 r h.2 hs.2)⟩

/-! ## Programs that only perform certain operations -/

/-- Every operation the program may perform satisfies `q`. -/
def Only (q : Op → Prop) : Prog Op Res α → Prop
  | done _ => True
  | op o k => q o ∧ ∀ r, (k r).Only q

variable {q : Op → Prop}

theorem only_done (a : α) : (done a : Prog Op Res α).Only q := trivial

theorem Only.mono {q' : Op → Prop} {p : Prog Op Res α} (h : p.Only q) (hq : ∀ o, q o → q' o) :
    p.Only q' := by
  induction p with
  | done a => trivial
  | op o k ih => exact ⟨hq o h.1, fun r => ih r (h.2 r)⟩

theorem only_perform {o : Op} (ho : q o) : (perform o : Prog Op Res (Res o)).Only q :=
  ⟨ho, fun _ => trivial⟩

theorem only_bind {p : Prog Op Res α} {f : α → Prog Op Res β} (hp : p.Only q)
    (hf : ∀ a, (f a).Only q) : (p >>= f).Only q := by
  induction p with
  | done a => exact hf a
  | op o k ih => exact ⟨hp.1, fun r => ih r (hp.2 r)⟩

theorem only_ite {c : Prop} [Decidable c] {p p' : Prog Op Res α} (hp : p.Only q) (hp' : p'.Only q) :
    (if c then p else p').Only q := by
  split
  · exact hp
  · exact hp'

/-- The first branch may come back to the second one. -/
theorem only_ite_else {c : Prop} [Decidable c] {p p' : Prog Op Res α} (hp : p'.Only q → p.Only q)
    (hp' : p'.Only q) : (if c then p else p').Only q :=
  only_ite (hp hp') hp'

/-- The second branch may come back to the first one. -/
theorem only_ite_then {c : Prop} [Decidable c] {p p' : Prog Op Res α} (hp' : p.Only q → p'.Only q)
    (hp : p.Only q) : (if c then p else p').Only q :=
  only_ite hp (hp' hp)

/-- What holds of all operations of a program may be asked for. -/
theorem wp_where {p : Prog Op Res α} {Q : α → Γ → Prop} {g : Γ} (hp : p.wp P Q g) (hq : p.Only q) :
    p.wp ⟨fun g o => P.owes g o ∧ q o, P.step⟩ Q g := by
  induction p generalizing g with
  | done a => exact hp
  | op o k ih => exact ⟨⟨hp.1, hq.1⟩, fun r g' hs => ih r (hp.2 r g' hs) (hq.2 r)⟩

/-- A contract that asks for nothing more of the operations in `q`, and foresees fewer answers, is met by a
program of such operations. -/
theorem wp_narrow {P' : Protocol Op Res Γ} (howes : ∀ g o, q o → P.owes g o → P'.owes g o)
    (hstep : ∀ g o r g', P'.step g o r g' → P.step g o r g') {p : Prog Op Res α} {Q : α → Γ → Prop} {g : Γ}
    (hp : p.wp P Q g) (hq : p.Only q) : p.wp P' Q g := by
  induction p generalizing g with
  | done a => exact hp
  | op o k ih => exact ⟨howes g o hq.1 hp.1, fun r g' hs => ih r (hp.2 r g' (hstep g o r g' hs)) (hq.2 r)⟩

/-- Operations that are free and change nothing leave a program with nothing to prove but its
postcondition. -/
theorem wp_of_only {g : Γ} (hq : ∀ o, q o → P.owes g o ∧ ∀ r g', P.step g o r g' → g' = g)
    {p : Prog Op Res α} (hp : p.Only q) {Q : α → Γ → Prop} (hQ : ∀ a, Q a g) : p.wp P Q g := by
  induction p with
  | done a => exact hQ a
  | op o k ih =>
    refine ⟨(hq o hp.1).1, fun r g' hs => ?_⟩
    rw [(hq o hp.1).2 r g' hs]
    exact ih r (hp.2 r)

/-- What comes after them goes on from where they began. -/
theorem wp_bind_of_only {g : Γ} (hq : ∀ o, q o → P.owes g o ∧ ∀ r g', P.step g o r g' → g' = g)
    {p : Prog Op Res α} {f : α → Prog Op Res β} (hp : p.Only q) {Q : β → Γ → Prop} (hf : ∀ a, (f a).wp P Q g) :
    (p >>= f).wp P Q g := by
  rw [wp_bind]
  exact wp_of_only hq hp hf

/-- Every operation the program may perform satisfies `q`, every way it can end satisfies `R`. -/
def Does (q : Op → Prop) (R : α → Prop) : Prog Op Res α → Prop
  | done a => R a
  | op o k => q o ∧ ∀ r, (k r).Does q R

theorem does_done {R : α → Prop} {a : α} (h : R a) : (done a : Prog Op Res α).Does q R := h

theorem Does.only {R : α → Prop} {p : Prog Op Res α} (h : p.Does q R) : p.Only q := by
  induction p with
  | done a => trivial
  | op o k ih => exact ⟨h.1, fun r => ih r (h.2 r)⟩

theorem Only.does {p : Prog Op Res α} (h : p.Only q) : p.Does q fun _ => True := by
  induction p with
  | done a => trivial
  | op o k ih => exact ⟨h.1, fun r => ih r (h.2 r)⟩

theorem Does.mono {q' : Op → Prop} {R R' : α → Prop} {p : Prog Op Res α} (h : p.Does q R)
    (hq : ∀ o, q o → q' o) (hR : ∀ a, R a → R' a) : p.Does q' R' := by
  induction p with
  | done a => exact hR a h
  | op o k ih => exact ⟨hq o h.1, fun r => ih r (h.2 r)⟩

theorem does_bind {R : α → Prop} {R' : β → Prop} {p : Prog Op Res α} {f : α → Prog Op Res β}
    (hp : p.Does q R) (hf : ∀ a, R a → (f a).Does q R') : (p >>= f).Does q R' := by
  induction p with
  | done a => exact hf a hp
  | op o k ih => exact ⟨hp.1, fun r => ih r (hp.2 r)⟩

theorem does_ite {c : Prop} [Decidable c] {R : α → Prop} {p p' : Prog Op Res α} (hp : c → p.Does q R)
    (hp' : ¬c → p'.Does q R) : (if c then p else p').Does q R := by
  split
  · rename_i h
    exact hp h
  · rename_i h
    exact hp' h

/-- A program whose operations are free and change nothing only has to end well. -/
theorem wp_of_does {g : Γ} (hq : ∀ o, q o → P.owes g o ∧ ∀ r g', P.step g o r g' → g' = g)
    {R : α → Prop} {p : Prog Op Res α} (hp : p.Does q R) {Q : α → Γ → Prop} (hQ : ∀ a, R a → Q a g) :
    p.wp P Q g := by
  induction p with
  | done a => exact hQ a hp
  | op o k ih =>
    refine ⟨(hq o hp.1).1, fun r g' hs => ?_⟩
    rw [(hq o hp.1).2 r g' hs]
    exact ih r (hp.2 r)

/-- Nor do they change what a handler keeps fixed. -/
theorem runWith_of_only {S A : Type} {h : S → (o : Op) → S × Res o} {f : S → A}
    (hq : ∀ s o, q o → f (h s o).1 = f s) {p : Prog Op Res α} (hp : p.Only q) (s : S) :
    f (p.runWith h s).1 = f s := by
  induction p generalizing s with
  | done a => rfl
  | op o k ih =>
    rw [runWith_op, ih _ (hp.2 _), hq s o hp.1]

/-! ## Programs on fixed answers -/

section Answers

variable (w : (o : Op) → Res o)

/-- The value a program returns when every operation is answered by `w`. -/
def result : Prog Op Res α → α
  | done a => a
  | op o k => (k (w o)).result

/-- One of the operations performed on those answers satisfies `q`. -/
def Performs (q : Op → Prop) : Prog Op Res α → Prop
  | done _ => False
  | op o k => q o ∨ (k (w o)).Performs q

variable {w}

theorem Does.result {R : α → Prop} {p : Prog Op Res α} (h : p.Does q R) : R (p.result w) := by
  induction p with
  | done a => exact h
  | op o k ih => exact ih _ (h.2 _)

theorem performs_bind_left {p : Prog Op Res α} (f : α → Prog Op Res β) (h : p.Performs w q) :
    (p >>= f).Performs w q := by
  induction p with
  | done a => exact h.elim
  | op o k ih => exact h.imp id (ih _)

theorem performs_bind {p : Prog Op Res α} {f : α → Prog Op Res β} (h : (f (p.result w)).Performs w q) :
    (p >>= f).Performs w q := by
  induction p with
  | done a => exact h
  | op o k ih => exact .inr (ih _ h)

theorem performs_ite {c : Prop} [Decidable c] {p p' : Prog Op Res α} (hp : c → p.Performs w q)
    (hp' : ¬c → p'.Performs w q) : (if c then p else p').Performs w q := by
  split
  · rename_i h
    exact hp h
  · rename_i h
    exact hp' h

/-- A contract that foresees these answers, and keeps its ghost state on them, covers what is
performed. -/
theorem wp_performs {g : Γ} (hw : ∀ o, P.step g o (w o) g) {p : Prog Op Res α} {Q : α → Γ → Prop}
    (hp : p.wp P Q g) (h : p.Performs w q) : ∃ o, q o ∧ P.owes g o := by
  induction p with
  | done a => exact h.elim
  | op o k ih =>
    rcases h with h | h
    · exact ⟨o, h, hp.1⟩
    · exact ih _ (hp.2 _ g (hw o)) h

/-- And what it returns on them satisfies the postcondition. -/
theorem wp_result {g : Γ} (hw : ∀ o, P.step g o (w o) g) {p : Prog Op Res α} {Q : α → Γ → Prop}
    (hp : p.wp P Q g) : Q (p.result w) g := by
  induction p with
  | done a => exact hp
  | op o k ih => exact ih _ (hp.2 _ g (hw o))

end Answers

/-! ## Programs up to some operations -/

/-- But for operations in `q`, the program performs what `p'` performs, in that order, and may end
before `p'` does. -/
def Within (q : Op → Prop) : Prog Op Res α → Prog Op Res β → Prop
  | done _, _ => True
  | op o k, p' =>
    q o ∧ (∀ r, (k r).Within q p') ∨
      ∃ k' : Res o → Prog Op Res β, p' = op o k' ∧ ∀ r, (k r).Within q (k' r)

section Within

variable {q : Op → Prop} {p' : Prog Op Res β}

theorem within_op {o : Op} {k : Res o → Prog Op Res α} {k' : Res o → Prog Op Res β}
    (h : ∀ r, (k r).Within q (k' r)) : (op o k).Within q (op o k') :=
  .inr ⟨k', rfl, h⟩

theorem Only.within {p : Prog Op Res α} (h : p.Only q) (p' : Prog Op Res β) : p.Within q p' := by
  induction p with
  | done a => trivial
  | op o k ih => exact .inl ⟨h.1, fun r => ih r (h.2 r)⟩

theorem within_ite {c : Prop} [Decidable c] {p₁ p₂ : Prog Op Res α} (h₁ : c → p₁.Within q p')
    (h₂ : ¬c → p₂.Within q p') : (if c then p₁ else p₂).Within q p' := by
  split
  · rename_i h
    exact h₁ h
  · rename_i h
    exact h₂ h

/-- What comes first is in `q`. -/
theorem Does.within_bind {R : α → Prop} {p : Prog Op Res α} {f : α → Prog Op Res γ} (h : p.Does q R)
    (hf : ∀ a, R a → (f a).Within q p') : (p >>= f).Within q p' := by
  induction p with
  | done a => exact hf a h
  | op o k ih => exact .inl ⟨h.1, fun r => ih r (h.2 r)⟩

/-- What comes last is in `q`. -/
theorem Within.bind {p : Prog Op Res α} {f : α → Prog Op Res γ} (h : p.Within q p')
    (hf : ∀ a, (f a).Only q) : (p >>= f).Within q p' := by
  induction p generalizing p' with
  | done a => exact (hf a).within p'
  | op o k ih =>
    rcases h with ⟨ho, h⟩ | ⟨k', rfl, h⟩
    · exact .inl ⟨ho, fun r => ih r (h r)⟩
    · exact within_op fun r => ih r (h r)

/-- The other program may go on. -/
theorem Within.append {p : Prog Op Res α} (h : p.Within q p') (f : β → Prog Op Res γ) :
    p.Within q (p' >>= f) := by
  induction p generalizing p' with
  | done a => trivial
  | op o k ih =>
    rcases h with ⟨ho, h⟩ | ⟨k', rfl, h⟩
    · exact .inl ⟨ho, fun r => ih r (h r)⟩
    · exact within_op fun r => ih r (h r)

/-- What holds at the end held before, if some step leads to it from there only. -/
theorem wp_back {Post : Γ → Prop} (hback : ∀ g o, ∃ r g', P.step g o r g' ∧ (Post g' → Post g))
    {p : Prog Op Res α} {g : Γ} (hp : p.wp P (fun _ => Post) g) : Post g := by
  induction p generalizing g with
  | done a => exact hp
  | op o k ih =>
    obtain ⟨r, g', hs, hpost⟩ := hback g o
    exact hpost (ih r (hp.2 r g' hs))

/-- Where the operations in `q` are free and change nothing, the program meets every contract that `p'`
meets, with a postcondition that held all along. -/
theorem Within.wp {p : Prog Op Res α} (h : p.Within q p')
    (hq : ∀ g o, q o → P.owes g o ∧ ∀ r g', P.step g o r g' → g' = g) {Post : Γ → Prop}
    (hback : ∀ g o, ∃ r g', P.step g o r g' ∧ (Post g' → Post g)) {g : Γ}
    (hp : p'.wp P (fun _ => Post) g) : p.wp P (fun _ => Post) g := by
  induction p generalizing p' g with
  | done a => exact wp_back hback hp
  | op o k ih =>
    rcases h with ⟨ho, h⟩ | ⟨k', rfl, h⟩
    · refine ⟨(hq g o ho).1, fun r g' hs => ?_⟩
      rw [(hq g o ho).2 r g' hs]
      exact ih r (h r) hp
    · exact ⟨hp.1, fun r g' hs => ih r (h r) (hp.2 r g' hs)⟩

end Within

section Residual

variable (q : Op → Prop) [DecidablePred q] (w : (o : Op) → Res o)

/-- What is left of a program when the operations in `q` are answered by `w`. -/
def residual : Prog Op Res α → Prog Op Res α
  | done a => done a
  | op o k => if q o then (k (w o)).residual else op o fun r => (k r).residual

variable {q w}

@[simp] theorem residual_bind (p : Prog Op Res α) (f : α → Prog Op Res β) :
    (p >>= f).residual q w = p.residual q w >>= fun a => (f a).residual q w := by
  induction p with
  | done a => rfl
  | op o k ih =>
    rw [op_bind, residual, residual]
    split
    · exact ih _
    · exact congrArg (op o) (funext ih)

theorem residual_of_only {p : Prog Op Res α} (h : p.Only q) : p.residual q w = done (p.result w) := by
  induction p with
  | done a => rfl
  | op o k ih =>
    rw [residual, if_pos h.1]
    exact ih _ (h.2 _)

/-- A contract that foresees those answers is met by what is left. -/
theorem wp_residual (hw : ∀ g o, q o → P.step g o (w o) g) {p : Prog Op Res α} {Q : α → Γ → Prop} {g : Γ}
    (hp : p.wp P Q g) : (p.residual q w).wp P Q g := by
  induction p generalizing g with
  | done a => exact hp
  | op o k ih =>
    rw [residual]
    split
    · rename_i ho
      exact ih _ (hp.2 _ g (hw g o ho))
    · exact ⟨hp.1, fun r g' hs => ih r (hp.2 r g' hs)⟩

end Residual

/-! ## Programs that keep an invariant -/

section Keeps

variable {I : Γ → Prop}

/-- From every ghost state in `I` the program meets the contract, and it ends in such a state. -/
def Keeps (P : Protocol Op Res Γ) (I : Γ → Prop) (p : Prog Op Res α) : Prop :=
  ∀ g, I g → p.wp P (fun _ => I) g

theorem keeps_done (a : α) : (done a : Prog Op Res α).Keeps P I := fun _ hg => hg

theorem keeps_bind {p : Prog Op Res α} {f : α → Prog Op Res β} (hp : p.Keeps P I)
    (hf : ∀ a, (f a).Keeps P I) : (p >>= f).Keeps P I := by
  intro g hg
  rw [wp_bind]
  exact wp_mono (hp g hg) fun a g' hg' => hf a g' hg'

theorem keeps_ite {c : Prop} [Decidable c] {p p' : Prog Op Res α} (hp : p.Keeps P I)
    (hp' : p'.Keeps P I) : (if c then p else p').Keeps P I := by
  split
  · exact hp
  · exact hp'

/-- Operations that keep the invariant make programs that do. -/
theorem keeps_of_only (hq : ∀ o, q o → ∀ g, I g → P.owes g o ∧ ∀ r g', P.step g o r g' → I g')
    {p : Prog Op Res α} (hp : p.Only q) : p.Keeps P I := by
  induction p with
  | done a => exact keeps_done a
  | op o k ih =>
    intro g hg
    obtain ⟨howes, hstep⟩ := hq o hp.1 g hg
    exact ⟨howes, fun r g' hs => ih r (hp.2 r) g' (hstep r g' hs)⟩

/-- And they end the way the program ends anyway. -/
theorem wp_does (hq : ∀ o, q o → ∀ g, I g → P.owes g o ∧ ∀ r g', P.step g o r g' → I g') {R : α → Prop}
    {p : Prog Op Res α} (hp : p.Does q R) {g : Γ} (hg : I g) : p.wp P (fun a g' => R a ∧ I g') g := by
  induction p generalizing g with
  | done a => exact ⟨hp, hg⟩
  | op o k ih =>
    obtain ⟨howes, hstep⟩ := hq o hp.1 g hg
    exact ⟨howes, fun r g' hs => ih r (hp.2 r) (hstep r g' hs)⟩

end Keeps

end Prog

end TurbineProxy
