import Mathlib.Algebra.Order.BigOperators.Group.List
import Mathlib.Algebra.Order.Ring.Nat

/-!
# Gauges

A library layer, independent of the proxy. Holders are in a list and weigh something under each of some keys; a gauge is
right if it shows for every key what they weigh together (`Gauged`). A step changes one holder, or adds one: `move` and
`join` say what the gauges have to do meanwhile.
-/

namespace TurbineProxy

variable {σ κ : Type} {w : σ → κ → Nat} {holders : List σ} {gauge gauge' : κ → Nat} {i : Nat} {x y : σ} {k : κ}

/-- What the holders weigh together. -/
def load (w : σ → κ → Nat) (holders : List σ) (k : κ) : Nat := (holders.map (w · k)).sum

@[simp] theorem load_cons (w : σ → κ → Nat) (x : σ) (holders : List σ) (k : κ) :
    load w (x :: holders) k = w x k + load w holders k := rfl

theorem load_concat (w : σ → κ → Nat) (holders : List σ) (x : σ) (k : κ) :
    load w (holders ++ [x]) k = load w holders k + w x k := by
  simp [load]

/-- One holder becomes another one. -/
theorem load_set (h : holders[i]? = some x) (y : σ) (k : κ) :
    load w (holders.set i y) k + w x k = load w holders k + w y k := by
  induction holders generalizing i with
  | nil => cases h
  | cons z holders ih =>
    cases i with
    | zero =>
      cases h
      simp only [List.set_cons_zero, load_cons]
      omega
    | succ i =>
      have hrest := ih h
      simp only [List.set_cons_succ, load_cons]
      omega

/-- Each of them weighs no more than all. -/
theorem le_load (h : x ∈ holders) (k : κ) : w x k ≤ load w holders k :=
  List.le_sum_of_mem (List.mem_map_of_mem h)

theorem load_eq_zero_iff : load w holders k = 0 ↔ ∀ x ∈ holders, w x k = 0 := by
  rw [load, List.sum_eq_zero_iff]
  exact List.forall_mem_map

/-- If none weighs more than one, they weigh no more than there are. -/
theorem load_le_length (h : ∀ x, w x k ≤ 1) (holders : List σ) : load w holders k ≤ holders.length := by
  induction holders with
  | nil => exact Nat.zero_le _
  | cons x holders ih =>
    have hx := h x
    rw [load_cons, List.length_cons]
    omega

/-- The gauges show what the holders weigh. -/
def Gauged (gauge : κ → Nat) (w : σ → κ → Nat) (holders : List σ) : Prop := ∀ k, gauge k = load w holders k

namespace Gauged

theorem nil (h : ∀ k, gauge k = 0) : Gauged gauge w [] := h

/-- The gauges move with the holder. -/
theorem move (h : Gauged gauge w holders) (hi : holders[i]? = some x)
    (hmove : ∀ k, gauge k = load w holders k → gauge' k + w x k = gauge k + w y k) :
    Gauged gauge' w (holders.set i y) := by
  intro k
  have hset := load_set (w := w) hi y k
  have hnew := hmove k (h k)
  have hold := h k
  omega

/-- Who comes in weighs nothing yet. -/
theorem join (h : Gauged gauge w holders) (hx : ∀ k, w x k = 0) : Gauged gauge w (holders ++ [x]) := by
  intro k
  rw [load_concat, hx, Nat.add_zero]
  exact h k

end Gauged

end TurbineProxy
