import Mathlib.Algebra.BigOperators.Group.List.Basic

/-!
# Accumulators

A library layer, independent of the proxy. An accumulator holds a sum, to which adders add their parts one at a time, in
any order, and of which something is taken out now and then. What is held and what was taken is always what the adders
have added (`Accumulator.kept`); with what they still owe, it is all they have begun to add (`Accumulator.begun_eq`).
-/

namespace TurbineProxy

variable {M : Type} [AddCommMonoid M]

/-- Somebody who adds to an accumulator, part by part. -/
structure Adder (M : Type) where
  did : List M
  left : List M

/-- What an adder has added. -/
def Adder.added (a : Adder M) : M := a.did.sum

/-- What it has not added yet. -/
def Adder.owed (a : Adder M) : M := a.left.sum

/-- An accumulator with all who ever added to it. -/
structure Accumulator (M : Type) [AddCommMonoid M] where
  held : M
  taken : M
  adders : List (Adder M)
  kept : taken + held = (adders.map Adder.added).sum

/-- The sum of a list of which one member has grown. -/
theorem sum_map_set {α : Type} {l : List α} {i : Nat} {x : α} (h : l[i]? = some x) {w : α → M} {y : α} {d : M}
    (hw : w y = w x + d) : ((l.set i y).map w).sum = (l.map w).sum + d := by
  induction l generalizing i with
  | nil => cases h
  | cons z l ih =>
    cases i with
    | zero =>
      cases h
      rw [List.set_cons_zero, List.map_cons, List.map_cons, List.sum_cons, List.sum_cons, hw, add_right_comm]
    | succ i =>
      rw [List.set_cons_succ, List.map_cons, List.map_cons, List.sum_cons, List.sum_cons, ih h, add_assoc]

namespace Accumulator

/-- Nothing was added yet. -/
def empty : Accumulator M := ⟨0, 0, [], add_zero (0 : M)⟩

variable (a : Accumulator M)

/-- Somebody begins to add. -/
def enter (parts : List M) : Accumulator M where
  held := a.held
  taken := a.taken
  adders := a.adders ++ [⟨[], parts⟩]
  kept := by
    rw [a.kept, List.map_append, List.sum_append]
    simp [Adder.added]

/-- An adder adds its next part. -/
def add (i : Nat) : Option (Accumulator M) :=
  match h : a.adders[i]? with
  | some ⟨did, part :: left⟩ => some
    { held := a.held + part
      taken := a.taken
      adders := a.adders.set i ⟨did ++ [part], left⟩
      kept := by
        have hadded : (⟨did ++ [part], left⟩ : Adder M).added = (⟨did, part :: left⟩ : Adder M).added + part := by
          rw [Adder.added, List.sum_append, List.sum_singleton]
          rfl
        rw [sum_map_set h hadded, ← a.kept, add_assoc] }
  | _ => none

/-- A part is taken out. -/
def take (part rest : M) (h : part + rest = a.held) : Accumulator M where
  held := rest
  taken := a.taken + part
  adders := a.adders
  kept := by rw [add_assoc, h, a.kept]

/-- All that was begun to be added. -/
def begun : M := (a.adders.map fun x => x.added + x.owed).sum

/-- What is still owed. -/
def owed : M := (a.adders.map Adder.owed).sum

/-- What was begun is held, was taken, or is owed. -/
theorem begun_eq : a.begun = a.taken + a.held + a.owed := by
  rw [a.kept, begun, owed, List.sum_map_add]

theorem begun_enter (parts : List M) : (a.enter parts).begun = a.begun + parts.sum := by
  rw [begun, enter, List.map_append, List.sum_append]
  simp [begun, Adder.added, Adder.owed]

/-- Adding what was begun begins nothing. -/
theorem begun_add {a a' : Accumulator M} {i : Nat} (h : a.add i = some a') :
    a'.begun = a.begun ∧ a'.taken = a.taken := by
  rw [add] at h
  split at h
  · rename_i did part left hi
    cases h
    refine ⟨?_, rfl⟩
    have hsame : (⟨did ++ [part], left⟩ : Adder M).added + (⟨did ++ [part], left⟩ : Adder M).owed =
        (⟨did, part :: left⟩ : Adder M).added + (⟨did, part :: left⟩ : Adder M).owed + 0 := by
      simp [Adder.added, Adder.owed, add_assoc]
    exact (sum_map_set (w := fun x : Adder M => x.added + x.owed) hi hsame).trans (add_zero _)
  · cases h

end Accumulator

end TurbineProxy
