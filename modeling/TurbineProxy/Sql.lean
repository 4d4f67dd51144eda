import Mathlib.Data.List.Lex
import Mathlib.Data.List.Nodup
import Mathlib.Data.List.Sort
import Mathlib.Data.Prod.Lex

/-!
# Tables and statements

An SQL table with an `INTEGER PRIMARY KEY AUTOINCREMENT`, the order of a query's rows, and a sequence of
statements outside a transaction: each one is committed by itself, and the first that fails is the last
that is executed.
-/

namespace TurbineProxy.Sql

/-! ## Tables -/

/-- A table: its rows with their ids, in the order they were inserted. -/
structure Table (α : Type) where
  rows : List (Int × α)
  /-- the highest id that was ever given -/
  seq : Int
  /-- no row has a higher one -/
  below : ∀ r ∈ rows, r.1 ≤ seq
  /-- ids are given in ascending order -/
  ascending : rows.Pairwise fun r r' => r.1 < r'.1

namespace Table

variable {α : Type}

/-- A table that was just created. -/
def empty : Table α := ⟨[], 0, by simp, List.Pairwise.nil⟩

variable (t : Table α)

/-- The rows without their ids. -/
def contents : List α := t.rows.map Prod.snd

/-- `INSERT` -/
def insert (a : α) : Table α where
  rows := t.rows ++ [(t.seq + 1, a)]
  seq := t.seq + 1
  below r hr := by
    rcases List.mem_append.1 hr with hold | hnew
    · have := t.below r hold
      omega
    · obtain rfl := List.mem_singleton.1 hnew
      exact Int.le_refl _
  ascending := by
    refine List.pairwise_append.2 ⟨t.ascending, List.pairwise_singleton _ _, fun r hr r' hr' => ?_⟩
    obtain rfl := List.mem_singleton.1 hr'
    exact Int.lt_add_one_of_le (t.below r hr)

/-- `DELETE … WHERE` -/
def deleteWhere (p : Int × α → Bool) : Table α where
  rows := t.rows.filter fun r => !p r
  seq := t.seq
  below r hr := t.below r (List.mem_of_mem_filter hr)
  ascending := t.ascending.filter _

/-- `UPDATE … SET … WHERE` -/
def updateWhere (p : Int × α → Bool) (f : α → α) : Table α where
  rows := t.rows.map fun r => if p r then (r.1, f r.2) else r
  seq := t.seq
  below r hr := by
    obtain ⟨r', hr', rfl⟩ := List.mem_map.1 hr
    split
    · exact t.below r' hr'
    · exact t.below r' hr'
  ascending := by
    refine List.pairwise_map.2 (t.ascending.imp fun {r r'} hlt => ?_)
    have hid : ∀ q : Int × α, (if p q then (q.1, f q.2) else q).1 = q.1 := fun q => by
      split
      · rfl
      · rfl
    rwa [hid, hid]

/-- Several `INSERT`s one after the other, each under the next id. -/
def insertAll (as : List α) : Table α := as.foldl insert t

@[simp] theorem contents_insert (a : α) : (t.insert a).contents = t.contents ++ [a] := by
  simp [contents, insert]

@[simp] theorem contents_insertAll (as : List α) : (t.insertAll as).contents = t.contents ++ as := by
  induction as generalizing t with
  | nil => simp [insertAll]
  | cons a as ih =>
    rw [insertAll, List.foldl_cons, ← insertAll, ih, contents_insert, List.append_assoc,
      List.singleton_append]

theorem contents_deleteAll : (t.deleteWhere fun _ => true).contents = [] := by
  simp [contents, deleteWhere]

/-- Inserted rows come after the others. -/
theorem insertAll_rows (as : List α) :
    ∃ new, (t.insertAll as).rows = t.rows ++ new ∧ new.map Prod.snd = as := by
  induction as generalizing t with
  | nil => exact ⟨[], (List.append_nil _).symm, rfl⟩
  | cons a as ih =>
    obtain ⟨new, hrows, hnew⟩ := ih (t.insert a)
    refine ⟨(t.seq + 1, a) :: new, ?_, by rw [List.map_cons, hnew]⟩
    rw [insertAll, List.foldl_cons, ← insertAll, hrows, insert, List.append_assoc, List.singleton_append]

/-- An id has one row. -/
theorem eq_of_id {r r' : Int × α} (hr : r ∈ t.rows) (hr' : r' ∈ t.rows) (h : r.1 = r'.1) : r = r' := by
  have hnodup : (t.rows.map Prod.fst).Nodup := List.pairwise_map.mpr (t.ascending.imp fun h => Int.ne_of_lt h)
  exact List.inj_on_of_nodup_map hnodup hr hr' h

/-- The row of an id that is updated. -/
theorem mem_updateWhere {p : Int × α → Bool} {id : Int} {a b new : α} (ha : (id, a) ∈ t.rows)
    (hp : p (id, a) = true) : (id, b) ∈ (t.updateWhere p fun _ => new).rows ↔ b = new := by
  constructor
  · intro h
    obtain ⟨r, hr, heq⟩ := List.mem_map.mp h
    have hid : r.1 = id := by
      split at heq
      · exact congrArg Prod.fst heq
      · exact congrArg Prod.fst heq
    obtain rfl : r = (id, a) := t.eq_of_id hr ha hid
    rw [if_pos hp] at heq
    exact (congrArg Prod.snd heq).symm
  · rintro rfl
    exact List.mem_map.mpr ⟨(id, a), ha, if_pos hp⟩

/-- The id of an inserted row is new: no table that had the row before it was inserted. -/
theorem ne_of_insert_prefix {a : α} {u v : Table α} (hids : v.seq = u.seq)
    (hpre : (v.insert a).rows <+: t.rows) : t.rows ≠ u.rows := by
  intro hsame
  have hmem : (v.seq + 1, a) ∈ u.rows := by
    rw [← hsame]
    exact hpre.subset (List.mem_append_right _ (List.mem_singleton_self _))
  have hbelow := u.below _ hmem
  rw [← hids] at hbelow
  simp only at hbelow
  omega

end Table

/-! ## The order of rows -/

section Order

variable {α κ : Type} [LinearOrder κ] (key : α → κ)

/-- What the rows are sorted by: a key of theirs, then the id. -/
def rank (r : Int × α) : κ ×ₗ Int := toLex (key r.2, r.1)

/-- `ORDER BY key, id` -/
def orderBy (rows : List (Int × α)) : List (Int × α) :=
  rows.insertionSort fun r r' => rank key r ≤ rank key r'

theorem orderBy_perm (rows : List (Int × α)) : (orderBy key rows).Perm rows := List.perm_insertionSort _ _

theorem mem_orderBy {rows : List (Int × α)} {r : Int × α} : r ∈ orderBy key rows ↔ r ∈ rows :=
  (orderBy_perm key rows).mem_iff

theorem orderBy_pairwise (rows : List (Int × α)) :
    (orderBy key rows).Pairwise fun r r' => rank key r ≤ rank key r' := List.pairwise_insertionSort _ _

theorem rank_le_iff (r r' : Int × α) :
    rank key r ≤ rank key r' ↔ key r.2 < key r'.2 ∨ key r.2 = key r'.2 ∧ r.1 ≤ r'.1 :=
  Prod.Lex.toLex_le_toLex

/-- Rows whose keys ascend are in order. -/
theorem orderBy_of_ascending {rows : List (Int × α)}
    (hkeys : rows.Pairwise fun r r' => key r.2 < key r'.2) : orderBy key rows = rows :=
  List.Pairwise.insertionSort_eq (hkeys.imp fun h => (rank_le_iff key _ _).2 (Or.inl h))

/-- Rows with one key are ordered by their ids. -/
theorem orderBy_of_constant {rows : List (Int × α)} (hids : rows.Pairwise fun r r' => r.1 < r'.1)
    {k : κ} (hkey : ∀ r ∈ rows, key r.2 = k) : orderBy key rows = rows := by
  refine List.Pairwise.insertionSort_eq (hids.imp_of_mem fun {r r'} hr hr' hlt => ?_)
  exact (rank_le_iff key _ _).2 (Or.inr ⟨(hkey r hr).trans (hkey r' hr').symm, Int.le_of_lt hlt⟩)

/-- Sorted lists of the same rows are equal. -/
theorem eq_of_perm_of_ranked {rows l l' : List (Int × α)} (hids : rows.Pairwise fun r r' => r.1 < r'.1)
    (hsub : ∀ r ∈ l, r ∈ rows) (hperm : l.Perm l')
    (hl : l.Pairwise fun r r' => rank key r ≤ rank key r')
    (hl' : l'.Pairwise fun r r' => rank key r ≤ rank key r') : l = l' := by
  refine hperm.eq_of_pairwise (fun r r' hr hr' hle hge => ?_) hl hl'
  have hid : r.1 = r'.1 := congrArg (fun x => (ofLex x).2) (le_antisymm hle hge)
  have hnodup : (rows.map Prod.fst).Nodup :=
    List.pairwise_map.2 (hids.imp fun hlt => Int.ne_of_lt hlt)
  exact List.inj_on_of_nodup_map hnodup (hsub r hr) (hsub r' (hperm.mem_iff.2 hr')) hid

/-- `WHERE` and `ORDER BY` may be applied in either order. -/
theorem filter_orderBy {rows : List (Int × α)} (hids : rows.Pairwise fun r r' => r.1 < r'.1)
    (p : Int × α → Bool) : (orderBy key rows).filter p = orderBy key (rows.filter p) := by
  have hperm : ((orderBy key rows).filter p).Perm (orderBy key (rows.filter p)) :=
    ((orderBy_perm key rows).filter p).trans (orderBy_perm key _).symm
  refine eq_of_perm_of_ranked key hids (fun r hr => ?_) hperm ?_ (orderBy_pairwise key _)
  · exact (mem_orderBy key).1 (List.mem_of_mem_filter hr)
  · exact (orderBy_pairwise key rows).filter _

end Order

/-! ## Statements -/

/-- A statement: what it makes of the database, if no constraint refuses it. -/
abbrev Stmt (σ : Type) : Type := σ → Option σ

variable {σ : Type}

/-- Statements one after the other, from number `n` on. `fails` are the numbers of those that fail for
a reason of their own: a full disk, a lock. The database afterwards, and whether all have succeeded. -/
def exec (fails : Nat → Bool) : Nat → List (Stmt σ) → σ → σ × Bool
  | _, [], db => (db, true)
  | n, stmt :: rest, db =>
    if fails n then (db, false)
    else
      match stmt db with
      | none => (db, false)
      | some db' => exec fails (n + 1) rest db'

/-- The database after statements that all succeed. -/
def runAll (stmts : List (Stmt σ)) (db : σ) : Option σ := stmts.foldlM (fun db stmt => stmt db) db

@[simp] theorem runAll_nil (db : σ) : runAll [] db = some db := rfl

@[simp] theorem runAll_cons (stmt : Stmt σ) (rest : List (Stmt σ)) (db : σ) :
    runAll (stmt :: rest) db = (stmt db).bind (runAll rest) := List.foldlM_cons

@[simp] theorem runAll_append (first rest : List (Stmt σ)) (db : σ) :
    runAll (first ++ rest) db = (runAll first db).bind (runAll rest) := List.foldlM_append

/-- All succeed when none fails and none is refused. -/
theorem exec_eq_true_iff (fails : Nat → Bool) (n : Nat) (stmts : List (Stmt σ)) (db db' : σ) :
    exec fails n stmts db = (db', true) ↔
      (∀ k < stmts.length, fails (n + k) = false) ∧ runAll stmts db = some db' := by
  induction stmts generalizing n db with
  | nil => simp [exec]
  | cons stmt rest ih =>
    have hsplit : (∀ k < (stmt :: rest).length, fails (n + k) = false) ↔
        fails n = false ∧ ∀ k < rest.length, fails (n + 1 + k) = false := by
      refine ⟨fun h => ⟨h 0 (Nat.succ_pos _), fun k hk => ?_⟩, fun h k hk => ?_⟩
      · have := h (k + 1) (Nat.succ_lt_succ hk)
        rwa [Nat.add_assoc, Nat.add_comm 1 k]
      · cases k with
        | zero => exact h.1
        | succ k =>
          have := h.2 k (Nat.lt_of_succ_lt_succ hk)
          rwa [Nat.add_assoc, Nat.add_comm 1 k] at this
    rw [hsplit, runAll_cons, exec]
    cases hfails : fails n with
    | true => simp
    | false =>
      cases hstmt : stmt db with
      | none => simp
      | some next => simp [ih]

/-- Otherwise one of them is the first that fails or is refused, and those before it have taken
effect. -/
theorem exec_eq_false_iff (fails : Nat → Bool) (n : Nat) (stmts : List (Stmt σ)) (db db' : σ) :
    exec fails n stmts db = (db', false) ↔
      ∃ k stmt, stmts[k]? = some stmt ∧ (∀ j < k, fails (n + j) = false) ∧
        runAll (stmts.take k) db = some db' ∧ (fails (n + k) = true ∨ stmt db' = none) := by
  induction stmts generalizing n db with
  | nil => simp [exec]
  | cons stmt rest ih =>
    rw [exec]
    constructor
    · cases hfails : fails n with
      | true =>
        rintro ⟨⟩
        exact ⟨0, stmt, rfl, fun j hj => absurd hj (Nat.not_lt_zero j), rfl, Or.inl hfails⟩
      | false =>
        cases hstmt : stmt db with
        | none =>
          rintro ⟨⟩
          exact ⟨0, stmt, rfl, fun j hj => absurd hj (Nat.not_lt_zero j), rfl, Or.inr hstmt⟩
        | some next =>
          intro hexec
          obtain ⟨k, s, hs, hbefore, hrun, hstop⟩ := (ih (n + 1) next).1 hexec
          refine ⟨k + 1, s, hs, fun j hj => ?_, ?_, ?_⟩
          · cases j with
            | zero => exact hfails
            | succ j =>
              have := hbefore j (Nat.lt_of_succ_lt_succ hj)
              rwa [Nat.add_assoc, Nat.add_comm 1 j] at this
          · rw [List.take_succ_cons, runAll_cons, hstmt]
            exact hrun
          · rwa [Nat.add_assoc, Nat.add_comm 1 k] at hstop
    · rintro ⟨k, s, hs, hbefore, hrun, hstop⟩
      cases k with
      | zero =>
        obtain rfl := Option.some.inj hrun
        obtain rfl := Option.some.inj hs
        rcases hstop with hstop | hstop
        · rw [if_pos (show fails n = true from hstop)]
        · rw [hstop]
          split
          · rfl
          · rfl
      | succ k =>
        have hfails : ¬ fails n = true := Bool.eq_false_iff.1 (hbefore 0 (Nat.succ_pos _))
        rw [List.take_succ_cons, runAll_cons] at hrun
        obtain ⟨next, hstmt, hrun⟩ := Option.bind_eq_some_iff.1 hrun
        rw [if_neg hfails, hstmt]
        refine (ih (n + 1) next).2 ⟨k, s, hs, fun j hj => ?_, hrun, ?_⟩
        · have := hbefore (j + 1) (Nat.succ_lt_succ hj)
          rwa [Nat.add_assoc, Nat.add_comm 1 j]
        · rwa [Nat.add_assoc, Nat.add_comm 1 k]

/-- What every statement preserves, their sequence preserves. -/
theorem runAll_preserves {P : σ → Prop} {stmts : List (Stmt σ)}
    (hstep : ∀ stmt ∈ stmts, ∀ db db', stmt db = some db' → P db → P db') {db db' : σ}
    (hrun : runAll stmts db = some db') (hdb : P db) : P db' := by
  induction stmts generalizing db with
  | nil =>
    obtain rfl := Option.some.inj hrun
    exact hdb
  | cons stmt rest ih =>
    rw [runAll_cons] at hrun
    obtain ⟨next, hnext, hrun⟩ := Option.bind_eq_some_iff.1 hrun
    exact ih (fun s hs => hstep s (List.mem_cons_of_mem _ hs)) hrun
      (hstep stmt List.mem_cons_self db next hnext hdb)

/-- What every statement preserves, statements that stop at a failure preserve too. -/
theorem exec_preserves {P : σ → Prop} {stmts : List (Stmt σ)}
    (hstep : ∀ stmt ∈ stmts, ∀ db db', stmt db = some db' → P db → P db') (fails : Nat → Bool) (n : Nat)
    {db : σ} (hdb : P db) : P (exec fails n stmts db).1 := by
  induction stmts generalizing n db with
  | nil => exact hdb
  | cons stmt rest ih =>
    rw [exec]
    split
    · exact hdb
    · split
      · exact hdb
      · rename_i next hnext
        exact ih (fun s hs => hstep s (List.mem_cons_of_mem _ hs)) (n + 1)
          (hstep stmt List.mem_cons_self db next hnext hdb)

end TurbineProxy.Sql
