import Mathlib.Algebra.BigOperators.Group.Finset.Piecewise
import Mathlib.Data.List.Dedup

/-!
# Rows summed up in groups

A library layer, independent of the proxy. Rows carry a number as their key and a value that can be
added up; rows whose keys lie in the same interval of a fixed width form a group. `upsert` adds to the row
of a key, `rollUp` puts the sum of every group that has a row under the group's own key, `prune` drops
what is below a key. `mem_rollUp` and `total_rollUp` say what a roll-up leaves, `total_of_groups` that sums
of groups add up.
-/

namespace TurbineProxy.Rollup

open Finset (sum_congr)

variable {V : Type} [AddCommMonoid V]

/-- Rows, each with its key. -/
abbrev Rows (V : Type) : Type := List (Nat × V)

/-- The keys of rows. -/
def keys (R : Rows V) : List Nat := R.map Prod.fst

/-- The sum of the rows whose keys satisfy `p`. -/
def total (p : Nat → Bool) (R : Rows V) : V := ((R.filter fun r => p r.1).map Prod.snd).sum

/-- The group of a key. -/
def groupOf (width b : Nat) : Nat := b / width * width

/-- Add to the row of a key, or make it. -/
def upsert (b : Nat) (v : V) : Rows V → Rows V
  | [] => [(b, v)]
  | (b', v') :: R => if b' = b then (b', v' + v) :: R else (b', v') :: upsert b v R

/-- The groups that have a row. -/
def groups (width : Nat) (src : Rows V) : List Nat := (src.map fun s => groupOf width s.1).dedup

/-- Replace the row of every group by the sum of the group. -/
def rollUp (width : Nat) (src dst : Rows V) : Rows V :=
  dst.filter (fun r => !(groups width src).contains r.1) ++
    (groups width src).map fun g => (g, total (groupOf width · == g) src)

/-- Drop the rows below a key. -/
def prune (cutoff : Nat) (R : Rows V) : Rows V := R.filter fun r => cutoff ≤ r.1

variable {p q : Nat → Bool} {R R' src dst : Rows V} {b g k width : Nat} {v : V}

/-! ## Sums -/

@[simp] theorem total_nil : total p ([] : Rows V) = 0 := rfl

theorem total_cons (r : Nat × V) (R : Rows V) :
    total p (r :: R) = (if p r.1 then r.2 else 0) + total p R := by
  unfold total
  rw [List.filter_cons]
  split
  · rw [List.map_cons, List.sum_cons]
  · rw [zero_add]

theorem total_append : total p (R ++ R') = total p R + total p R' := by
  unfold total
  rw [List.filter_append, List.map_append, List.sum_append]

theorem total_congr (h : ∀ k ∈ keys R, p k = q k) : total p R = total q R := by
  unfold total
  rw [List.filter_congr fun r hr => h r.1 (List.mem_map_of_mem hr)]

/-- A sum of a part is a sum. -/
theorem total_filter (q : Nat → Bool) (R : Rows V) :
    total p (R.filter fun r => q r.1) = total (fun b => p b && q b) R := by
  unfold total
  rw [List.filter_filter]

/-- Rows that add nothing have the sum zero. -/
theorem total_eq_zero (h : ∀ r ∈ R, p r.1 = true → r.2 = 0) : total p R = 0 := by
  induction R with
  | nil => rfl
  | cons r R ih =>
    rw [total_cons, ih fun r' hr' => h r' (List.mem_cons_of_mem _ hr'), add_zero]
    split
    · exact h r List.mem_cons_self ‹_›
    · rfl

/-- Adding to a row adds to the sums it is part of. -/
theorem total_upsert : total p (upsert b v R) = (if p b then v else 0) + total p R := by
  induction R with
  | nil => rw [upsert, total_cons]
  | cons r R ih =>
    obtain ⟨b', v'⟩ := r
    rw [upsert]
    split
    · rename_i heq
      subst heq
      rw [total_cons, total_cons]
      cases p b'
      · simp only [Bool.false_eq_true, if_false, zero_add]
      · simp only [if_true]
        rw [add_comm v' v, add_assoc]
    · rw [total_cons, ih, total_cons, add_left_comm]

theorem mem_keys_upsert : k ∈ keys (upsert b v R) ↔ k = b ∨ k ∈ keys R := by
  induction R with
  | nil => simp [upsert, keys]
  | cons r R ih =>
    obtain ⟨b', v'⟩ := r
    rw [upsert]
    split
    · rename_i heq
      subst heq
      simp [keys]
    · simp only [keys, List.map_cons, List.mem_cons] at ih ⊢
      rw [ih, or_left_comm]

/-- Sums over the groups of a set add up to the sum over the rows of these groups. -/
theorem sum_total (f : Nat → Nat) (ks : Finset Nat) (R : Rows V) :
    ∑ g ∈ ks, total (f · == g) R = total (fun b => f b ∈ ks) R := by
  induction R with
  | nil => exact Finset.sum_const_zero
  | cons r R ih =>
    have hr : ∑ g ∈ ks, (if f r.1 == g then r.2 else 0) = if f r.1 ∈ ks then r.2 else 0 := by
      simp only [beq_iff_eq]
      exact Finset.sum_ite_eq ks (f r.1) fun _ => r.2
    simp only [total_cons, Finset.sum_add_distrib, ih, hr, decide_eq_true_eq]

/-- Where rows show the sums of groups of others, they add up to what the others do. -/
theorem total_of_groups {f : Nat → Nat}
    (h : ∀ g, q g = true → total (· == g) R = total (f · == g) R') :
    total q R = total (fun b => q (f b)) R' := by
  let ks : Finset Nat := ((keys R ++ (keys R').map f).toFinset).filter fun g => q g = true
  have hks : ∀ g, g ∈ ks ↔ (g ∈ keys R ∨ g ∈ (keys R').map f) ∧ q g = true := by
    intro g
    rw [Finset.mem_filter, List.mem_toFinset, List.mem_append]
  calc total q R = total (fun b => b ∈ ks) R := total_congr fun k hk => by simp [hks, hk]
    _ = ∑ g ∈ ks, total (· == g) R := (sum_total (fun b => b) ks R).symm
    _ = ∑ g ∈ ks, total (f · == g) R' := sum_congr rfl fun g hg => h g ((hks g).mp hg).2
    _ = total (fun b => f b ∈ ks) R' := sum_total f ks R'
    _ = total (fun b => q (f b)) R' :=
      total_congr fun k hk => by simp [hks, List.mem_map_of_mem hk]

section NoNegatives

variable [Subsingleton (AddUnits V)]

/-- What adds up to nothing has parts that are nothing. -/
theorem total_suffix_eq_zero (hsuffix : R' <:+ R) (h : total p R = 0) : total p R' = 0 := by
  obtain ⟨newer, rfl⟩ := hsuffix
  rw [total_append] at h
  exact (add_eq_zero.mp h).2

end NoNegatives

/-- The sum over the rows of one key is its row. -/
theorem total_of_mem (hnodup : (keys R).Nodup) (h : (g, v) ∈ R) : total (· == g) R = v := by
  induction R with
  | nil => nomatch h
  | cons r R ih =>
    obtain ⟨hnew, hnodup⟩ := List.nodup_cons.mp hnodup
    rw [total_cons]
    rcases List.mem_cons.mp h with rfl | h
    · rw [if_pos (beq_self_eq_true g), total_eq_zero, add_zero]
      intro r hr hkey
      obtain rfl : r.1 = g := beq_iff_eq.mp hkey
      exact absurd (List.mem_map_of_mem hr) hnew
    · have hne : ¬ (r.1 == g) = true := by
        intro heq
        exact hnew (List.mem_map.mpr ⟨(g, v), h, (beq_iff_eq.mp heq).symm⟩)
      rw [if_neg hne, zero_add, ih hnodup h]

/-! ## Roll-ups -/

theorem groupOf_le (width b : Nat) : groupOf width b ≤ b := Nat.div_mul_le_self b width

theorem lt_groupOf_add (h : 0 < width) (b : Nat) : b < groupOf width b + width := by
  have hmod := Nat.div_add_mod' b width
  have hlt := Nat.mod_lt b h
  rw [groupOf]
  omega

theorem groupOf_mono {b b' : Nat} (h : b ≤ b') : groupOf width b ≤ groupOf width b' :=
  Nat.mul_le_mul_right _ (Nat.div_le_div_right h)

omit [AddCommMonoid V] in
theorem mem_groups : g ∈ groups width src ↔ ∃ r ∈ src, groupOf width r.1 = g := by
  rw [groups]
  rw [List.mem_dedup, List.mem_map]

/-- A group without rows adds nothing. -/
theorem total_eq_zero_of_not_mem_groups (h : g ∉ groups width src) :
    total (groupOf width · == g) src = 0 :=
  total_eq_zero fun r hr hkey => absurd (mem_groups.mpr ⟨r, hr, beq_iff_eq.mp hkey⟩) h

/-- The rows of a roll-up: what it does not reach, and the sums. -/
theorem mem_rollUp : (g, v) ∈ rollUp width src dst ↔
    (g, v) ∈ dst ∧ g ∉ groups width src ∨ g ∈ groups width src ∧ v = total (groupOf width · == g) src := by
  rw [rollUp]
  rw [List.mem_append, List.mem_filter, List.mem_map]
  refine or_congr (by simp) ⟨?_, ?_⟩
  · rintro ⟨g', hg', heq⟩
    cases heq
    exact ⟨hg', rfl⟩
  · rintro ⟨hg, rfl⟩
    exact ⟨g, hg, rfl⟩

theorem nodup_keys_rollUp (h : (keys dst).Nodup) : (keys (rollUp width src dst)).Nodup := by
  have hsums : keys ((groups width src).map fun g => (g, total (groupOf width · == g) src)) =
      groups width src := by
    rw [keys]
    rw [List.map_map]
    exact List.map_id _
  have hkept : (keys (dst.filter fun r => !(groups width src).contains r.1)).Nodup :=
    h.sublist (List.filter_sublist.map _)
  have hboth : keys (rollUp width src dst) =
      keys (dst.filter fun r => !(groups width src).contains r.1) ++ groups width src := by
    rw [rollUp, keys, List.map_append]
    exact congrArg _ hsums
  rw [hboth]
  refine List.nodup_append.mpr ⟨hkept, List.nodup_dedup _, fun k hk k' hk' => ?_⟩
  obtain ⟨r, hr, rfl⟩ := List.mem_map.mp hk
  rintro rfl
  have hnot : r.1 ∉ groups width src := by simpa using (List.mem_filter.mp hr).2
  exact hnot hk'

/-- The row of a group after a roll-up. -/
theorem total_rollUp (h : (keys dst).Nodup) : total (· == g) (rollUp width src dst) =
    if g ∈ groups width src then total (groupOf width · == g) src else total (· == g) dst := by
  split
  · rename_i hg
    exact total_of_mem (nodup_keys_rollUp h) (mem_rollUp.mpr (.inr ⟨hg, rfl⟩))
  · rename_i hg
    rw [rollUp]
    rw [total_append, total_filter (fun b => !(groups width src).contains b),
      total_eq_zero (p := (· == g)) (R := List.map _ _), add_zero]
    · refine total_congr fun k _ => ?_
      by_cases hk : k = g
      · subst hk
        simp [hg]
      · simp [hk]
    · intro r hr hkey
      obtain ⟨g', hg', rfl⟩ := List.mem_map.mp hr
      exact absurd (beq_iff_eq.mp hkey ▸ hg') hg

/-! ## Pruning -/

omit [AddCommMonoid V] in
theorem mem_prune {r : Nat × V} {cutoff : Nat} : r ∈ prune cutoff R ↔ r ∈ R ∧ cutoff ≤ r.1 := by
  rw [prune]
  rw [List.mem_filter, decide_eq_true_eq]

omit [AddCommMonoid V] in
theorem nodup_keys_prune {cutoff : Nat} (h : (keys R).Nodup) : (keys (prune cutoff R)).Nodup :=
  h.sublist (List.filter_sublist.map _)

/-- What is not below the key, or adds nothing, is not missed. -/
theorem total_prune {cutoff : Nat} (h : ∀ r ∈ R, p r.1 = true → r.1 < cutoff → r.2 = 0) :
    total p (prune cutoff R) = total p R := by
  induction R with
  | nil => rfl
  | cons r R ih =>
    have ih := ih fun r' hr' => h r' (List.mem_cons_of_mem _ hr')
    unfold prune at ih ⊢
    rw [List.filter_cons]
    split
    · rw [total_cons, total_cons, ih]
    · rename_i hlow
      rw [total_cons, ih]
      split
      · rename_i hp
        rw [h r List.mem_cons_self hp (by simpa using hlow), zero_add]
      · rw [zero_add]

end TurbineProxy.Rollup
