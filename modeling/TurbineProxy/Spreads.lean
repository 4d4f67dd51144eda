import Mathlib.Data.List.Sort
import Mathlib.Data.Nat.Basic

/-!
# Spreads

A library layer, independent of the proxy: what is kept of samples, that is how many there are, their sum, and bounds
for them (`Spread`). Spreads of two kinds of samples make one of all of them (`Spread.combine`), and samples that are
measured in a coarser unit have the spread in that unit (`Spread.coarsen`). A sample at a place of the sorted list is
within the bounds, wherever that is.
-/

namespace TurbineProxy

/-- So many samples, with this sum, are between two bounds; a sum that was rounded up may exceed them by less than one
each. -/
structure Spread (count total min max : Nat) : Prop where
  pos : 0 < count
  le_total : count * min ≤ total
  total_lt : total < count * (max + 1)

namespace Spread

variable {c c' t t' m m' M M' n : Nat}

theorem le_avg (h : Spread c t m M) : m ≤ t / c :=
  (Nat.le_div_iff_mul_le h.pos).mpr (Nat.mul_comm c m ▸ h.le_total)

theorem avg_le (h : Spread c t m M) : t / c ≤ M :=
  Nat.le_of_lt_succ (Nat.div_lt_of_lt_mul h.total_lt)

/-- Two samples together lie between the smaller least and the larger greatest value. -/
theorem combine (h : Spread c t m M) (h' : Spread c' t' m' M') : Spread (c + c') (t + t') (min m m') (max M M') where
  pos := Nat.add_pos_left h.pos _
  le_total := by
    have hleft : c * min m m' ≤ c * m := Nat.mul_le_mul_left c (Nat.min_le_left ..)
    have hright : c' * min m m' ≤ c' * m' := Nat.mul_le_mul_left c' (Nat.min_le_right ..)
    have hsum := h.le_total
    have hsum' := h'.le_total
    rw [Nat.add_mul]
    omega
  total_lt := by
    have hleft : c * (M + 1) ≤ c * (max M M' + 1) :=
      Nat.mul_le_mul_left c (Nat.succ_le_succ (Nat.le_max_left ..))
    have hright : c' * (M' + 1) ≤ c' * (max M M' + 1) :=
      Nat.mul_le_mul_left c' (Nat.succ_le_succ (Nat.le_max_right ..))
    have hsum := h.total_lt
    have hsum' := h'.total_lt
    rw [Nat.add_mul]
    omega

/-- A single sample is its own least, greatest and total value. -/
theorem one (d : Nat) : Spread 1 d d d := ⟨Nat.one_pos, by omega, by omega⟩

/-- Values that fit together still do in a coarser unit, each of them rounded down. -/
theorem coarsen (hn : 0 < n) (h : Spread c t m M) (hle : t ≤ c * M) : Spread c (t / n) (m / n) (M / n) where
  pos := h.pos
  le_total := by
    have hdiv : m / n * n ≤ m := Nat.div_mul_le_self m n
    rw [Nat.le_div_iff_mul_le hn, Nat.mul_assoc]
    exact (Nat.mul_le_mul_left c hdiv).trans h.le_total
  total_lt := by
    have hlt : M < (M / n + 1) * n := Nat.mul_comm n _ ▸ Nat.lt_mul_div_succ M hn
    rw [Nat.div_lt_iff_lt_mul hn, Nat.mul_assoc]
    exact hle.trans_lt (Nat.mul_lt_mul_of_pos_left hlt h.pos)

end Spread

/-! ## Places of a sorted list -/

section Places

variable {l : List Nat} {i j : Nat}

theorem getD_eq_getElem (h : i < l.length) : l.getD i 0 = l[i] := by
  rw [List.getD_eq_getElem?_getD, List.getElem?_eq_getElem h, Option.getD_some]

theorem getD_mergeSort_mem (h : i < l.length) : l.mergeSort.getD i 0 ∈ l := by
  rw [getD_eq_getElem (by rwa [List.length_mergeSort])]
  exact List.mem_mergeSort.mp (List.getElem_mem _)

/-- A later place has no smaller sample. -/
theorem getD_mergeSort_le (hij : i ≤ j) (h : j < l.length) : l.mergeSort.getD i 0 ≤ l.mergeSort.getD j 0 := by
  have hj : j < l.mergeSort.length := by rwa [List.length_mergeSort]
  have htrans : ∀ a b c : Nat, decide (a ≤ b) = true → decide (b ≤ c) = true → decide (a ≤ c) = true :=
    fun a b c hab hbc => decide_eq_true ((of_decide_eq_true hab).trans (of_decide_eq_true hbc))
  have hsorted := List.pairwise_mergeSort htrans (fun a b => by simpa using Nat.le_total a b) l
  rw [getD_eq_getElem (hij.trans_lt hj), getD_eq_getElem hj]
  rcases Nat.lt_or_eq_of_le hij with hlt | rfl
  · exact of_decide_eq_true (List.pairwise_iff_getElem.mp hsorted i j _ _ hlt)
  · exact Nat.le_refl _

end Places

end TurbineProxy
