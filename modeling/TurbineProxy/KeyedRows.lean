import Mathlib.Algebra.BigOperators.Group.List.Basic
import Mathlib.Algebra.Ring.Nat

/-!
# Rows with keys

A library layer, independent of the proxy: rows that are put into a list by their keys, as into a hash map or into a
table with a primary key. A row whose key is there is merged with the one that has it. What such rows add up to is the
sum of what was put in (`sum_upsert`, `sum_upsertAll`).
-/

namespace TurbineProxy.Keyed

variable {α β κ : Type} [DecidableEq κ]

/-- Put a row in, or merge it with the first one of its key. -/
def upsert (key : α → κ) (new : α) (merge : α → α) : List α → List α
  | [] => [new]
  | a :: l => if key a = key new then merge a :: l else a :: upsert key new merge l

/-- Put rows in, one after the other. -/
def upsertAll (key : α → κ) (merge : α → α → α) (news : List α) (l : List α) : List α :=
  news.foldl (fun l new => upsert key new (merge new) l) l

section One

variable {key : α → κ} {new : α} {merge : α → α} {l : List α} {w : α → Nat} {P : α → Prop}

/-- What rows are after one was put in. -/
theorem mem_upsert {a : α} (h : a ∈ upsert key new merge l) :
    a ∈ l ∨ a = new ∨ ∃ b ∈ l, key b = key new ∧ a = merge b := by
  induction l with
  | nil => exact .inr (.inl (List.mem_singleton.mp h))
  | cons b l ih =>
    rw [upsert] at h
    by_cases hkey : key b = key new
    · rw [if_pos hkey] at h
      rcases List.mem_cons.mp h with rfl | h
      · exact .inr (.inr ⟨b, .head l, hkey, rfl⟩)
      · exact .inl (.tail b h)
    · rw [if_neg hkey] at h
      rcases List.mem_cons.mp h with rfl | h
      · exact .inl (.head l)
      · rcases ih h with h | h | ⟨c, hc, hmerge⟩
        · exact .inl (.tail b h)
        · exact .inr (.inl h)
        · exact .inr (.inr ⟨c, .tail b hc, hmerge⟩)

/-- The rows add up to what they did, and the new one. -/
theorem sum_upsert (hw : ∀ a ∈ l, key a = key new → w (merge a) = w a + w new) :
    ((upsert key new merge l).map w).sum = (l.map w).sum + w new := by
  induction l with
  | nil => simp [upsert]
  | cons a l ih =>
    rw [upsert]
    by_cases hkey : key a = key new
    · rw [if_pos hkey, List.map_cons, List.map_cons, List.sum_cons, List.sum_cons, hw a (.head l) hkey]
      omega
    · rw [if_neg hkey, List.map_cons, List.map_cons, List.sum_cons, List.sum_cons, ih fun b hb => hw b (.tail a hb)]
      omega

/-- A property that the new row has and merging keeps. -/
theorem forall_upsert (hl : ∀ a ∈ l, P a) (hnew : P new) (hmerge : ∀ a ∈ l, key a = key new → P (merge a)) :
    ∀ a ∈ upsert key new merge l, P a := by
  intro a ha
  rcases mem_upsert ha with h | rfl | ⟨b, hb, hkey, rfl⟩
  · exact hl a h
  · exact hnew
  · exact hmerge b hb hkey

end One

/-- Rows that are all put in, if merging adds them up among the rows of a kind. -/
theorem sum_upsertAll {key : α → κ} {merge : α → α → α} {w : α → Nat} {P : α → Prop}
    (hmerge : ∀ new a, P new → P a → key a = key new → w (merge new a) = w a + w new ∧ P (merge new a))
    {news l : List α} (hnews : ∀ a ∈ news, P a) (hl : ∀ a ∈ l, P a) :
    ((upsertAll key merge news l).map w).sum = (l.map w).sum + (news.map w).sum ∧
      ∀ a ∈ upsertAll key merge news l, P a := by
  induction news generalizing l with
  | nil => exact ⟨rfl, hl⟩
  | cons new news ih =>
    have hnew := hnews new (.head news)
    have hsum := sum_upsert fun a ha hkey => (hmerge new a hnew (hl a ha) hkey).1
    obtain ⟨hrest, hall⟩ := ih (fun a ha => hnews a (.tail new ha))
      (forall_upsert hl hnew fun a ha hkey => (hmerge new a hnew (hl a ha) hkey).2)
    refine ⟨hrest.trans ?_, hall⟩
    rw [hsum, List.map_cons, List.sum_cons, Nat.add_assoc]

/-! ## Keys -/

section Keys

variable {β : Type} {key : α → κ} {new a : α} {merge : α → α} {l : List α}

/-- Rows can be changed after one was put in, or before. -/
theorem map_upsert {f : α → β} {key' : β → κ} {merge' : β → β} (hkey : ∀ a, key' (f a) = key a)
    (hmerge : ∀ a, f (merge a) = merge' (f a)) :
    (upsert key new merge l).map f = upsert key' (f new) merge' (l.map f) := by
  induction l with
  | nil => rfl
  | cons a l ih =>
    rw [upsert, List.map_cons, upsert, hkey, hkey]
    split
    · rw [List.map_cons, hmerge]
    · rw [List.map_cons, ih]

/-- The keys stay, and the one of the new row is there. -/
theorem mem_keys_upsert (hmerge : ∀ a, key a = key new → key (merge a) = key a) {k : κ} :
    k ∈ (upsert key new merge l).map key ↔ k = key new ∨ k ∈ l.map key := by
  induction l with
  | nil => simp [upsert]
  | cons a l ih =>
    rw [upsert]
    split
    · rename_i heq
      rw [List.map_cons, List.map_cons, List.mem_cons, List.mem_cons, hmerge a heq, heq]
      exact ⟨.inr, fun h => h.elim .inl id⟩
    · rw [List.map_cons, List.map_cons, List.mem_cons, List.mem_cons, ih]
      exact or_left_comm

/-- No key is there twice. -/
theorem nodup_upsert (hmerge : ∀ a, key a = key new → key (merge a) = key a) (h : (l.map key).Nodup) :
    ((upsert key new merge l).map key).Nodup := by
  induction l with
  | nil => exact List.pairwise_singleton _ _
  | cons a l ih =>
    rw [List.map_cons, List.nodup_cons] at h
    rw [upsert]
    split
    · rename_i heq
      rw [List.map_cons, List.nodup_cons, hmerge a heq]
      exact h
    · rename_i hne
      rw [List.map_cons, List.nodup_cons, mem_keys_upsert hmerge]
      exact ⟨fun hmem => hmem.elim hne h.1, ih h.2⟩

theorem length_upsert_le (key : α → κ) (new : α) (merge : α → α) (l : List α) :
    (upsert key new merge l).length ≤ l.length + 1 := by
  induction l with
  | nil => exact Nat.le_refl _
  | cons a l ih =>
    rw [upsert]
    split
    · exact Nat.le_succ _
    · exact Nat.succ_le_succ ih

/-- There are no more rows than were there and put in. -/
theorem length_upsertAll_le (key : α → κ) (merge : α → α → α) (news l : List α) :
    (upsertAll key merge news l).length ≤ l.length + news.length := by
  induction news generalizing l with
  | nil => exact Nat.le_refl _
  | cons new news ih =>
    have hone := length_upsert_le key new (merge new) l
    have hrest := ih (upsert key new (merge new) l)
    rw [upsertAll, List.foldl_cons, List.length_cons]
    exact hrest.trans (by omega)

/-- The row of a key has what the rows of that key add up to. -/
theorem sum_of_nodup {w : α → Nat} (h : (l.map key).Nodup) (ha : a ∈ l) :
    (l.map fun b => if key b = key a then w b else 0).sum = w a := by
  induction l with
  | nil => cases ha
  | cons b l ih =>
    rw [List.map_cons, List.nodup_cons] at h
    rw [List.map_cons, List.sum_cons]
    rcases List.mem_cons.mp ha with rfl | ha
    · have hrest : (l.map fun b => if key b = key a then w b else 0).sum = 0 :=
        List.sum_eq_zero fun n hn => by
          obtain ⟨c, hc, rfl⟩ := List.mem_map.mp hn
          exact if_neg fun heq : key c = key a => h.1 (heq ▸ List.mem_map_of_mem hc)
      rw [if_pos rfl, hrest]
      rfl
    · rw [if_neg fun heq : key b = key a => h.1 (heq ▸ List.mem_map_of_mem ha), ih h.2 ha, Nat.zero_add]

/-- Rows that are all put in leave no key twice, and each row has what was put in under its key. -/
theorem upsertAll_spec {merge : α → α → α} {w : α → Nat} (hkey : ∀ new a, key a = key new → key (merge new a) = key a)
    (hw : ∀ new a, key a = key new → w (merge new a) = w a + w new) (news : List α) :
    (∀ a ∈ upsertAll key merge news [], w a = (news.map fun b => if key b = key a then w b else 0).sum) ∧
      ∀ k, k ∈ (upsertAll key merge news []).map key ↔ k ∈ news.map key := by
  have hnodup : ∀ (news l : List α), (l.map key).Nodup → ((upsertAll key merge news l).map key).Nodup ∧
      ∀ k, k ∈ (upsertAll key merge news l).map key ↔ k ∈ news.map key ∨ k ∈ l.map key := by
    intro news
    induction news with
    | nil => exact fun l h => ⟨h, fun k => by simp [upsertAll]⟩
    | cons new news ih =>
      intro l h
      obtain ⟨hrest, hmem⟩ := ih _ (nodup_upsert (hkey new) h)
      refine ⟨hrest, fun k => (hmem k).trans ?_⟩
      rw [mem_keys_upsert (hkey new), List.map_cons, List.mem_cons, ← or_assoc, or_comm (a := k ∈ news.map key)]
  obtain ⟨hnodup, hmem⟩ := hnodup news [] List.nodup_nil
  refine ⟨fun a ha => ?_, fun k => (hmem k).trans (or_iff_left List.not_mem_nil)⟩
  have hmerge : ∀ new b, key b = key new → (if key (merge new b) = key a then w (merge new b) else 0) =
      (if key b = key a then w b else 0) + (if key new = key a then w new else 0) := by
    intro new b heq
    rw [hkey new b heq, heq]
    split
    · exact hw new b heq
    · rfl
  have hsum := (sum_upsertAll (w := fun b => if key b = key a then w b else 0) (P := fun _ => True)
    (fun new b _ _ heq => ⟨hmerge new b heq, trivial⟩) (l := []) (fun b (_ : b ∈ news) => trivial)
    (List.forall_mem_nil _)).1
  rw [sum_of_nodup hnodup ha] at hsum
  exact hsum.trans (Nat.zero_add _)

end Keys

end TurbineProxy.Keyed
