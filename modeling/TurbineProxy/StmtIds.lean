import Mathlib.Data.List.Induction
import Mathlib.Logic.Function.Basic
import TurbineProxy.StmtShadow

/-!
# The ids of MySQL statements

`MysqlStmtShadow` against a table whose statements are told apart by a number of their own. The ids of the shadow have
32 bits and come round again: the two agree as long as no statement lives that long.
-/

namespace TurbineProxy

/-! ## Calls -/

/-- A call that changes the shadow. -/
inductive ShadowCall : Type where
  | register (info : MysqlStmtInfo)
  | remove (id : Nat)
  | updateBackendIds (newIds : List (Nat × Nat))

namespace MysqlStmtShadow

/-- The shadow after a call. -/
def call (s : MysqlStmtShadow) : ShadowCall → MysqlStmtShadow
  | .register info => (s.register info.query info.numParams info.numColumns info.backendId).1
  | .remove id => s.remove id
  | .updateBackendIds newIds => s.updateBackendIds newIds

/-- The shadow after some calls. -/
def after (calls : List ShadowCall) : MysqlStmtShadow := calls.foldl call new

end MysqlStmtShadow

namespace ShadowCall

/-- The entries that a call is about. -/
def Touches (s : MysqlStmtShadow) : ShadowCall → Nat → Prop
  | register _, p => p = s.nextId
  | remove id, p => p = id
  | updateBackendIds newIds, p => (newIds.lookup p).isSome

/-- The number of statements that have been registered. -/
def registrations (calls : List ShadowCall) : Nat := calls.countP fun c => c matches register _

end ShadowCall

open ShadowCall (registrations)

/-! ## What the ids stand for -/

/-- The id of the statement with this number. -/
def registeredId (number : Nat) : Nat := (number + 1) % 2 ^ 32

/-- A statement a client has open: its place in the order of registration, and what the shadow has of it. -/
structure OpenStmt where
  /-- how many were registered before it -/
  number : Nat
  info : MysqlStmtInfo

/-- What each id stands for. -/
structure StmtTable where
  /-- the number of the next statement -/
  next : Nat
  stands : Nat → Option OpenStmt

/-- The statement, with the backend id that an update has for it. -/
def MysqlStmtInfo.renew (newIds : List (Nat × Nat)) (id : Nat) (info : MysqlStmtInfo) : MysqlStmtInfo :=
  { info with backendId := (newIds.lookup id).getD info.backendId }

namespace StmtTable

/-- A registration gives its id a meaning, a removal takes it, and an update changes what it lists. -/
def call (σ : StmtTable) : ShadowCall → StmtTable
  | .register info => ⟨σ.next + 1, Function.update σ.stands (registeredId σ.next) (some ⟨σ.next, info⟩)⟩
  | .remove id => { σ with stands := Function.update σ.stands id none }
  | .updateBackendIds newIds =>
    { σ with stands := fun id => (σ.stands id).map fun o => { o with info := o.info.renew newIds id } }

/-- The table after some calls. -/
def after (calls : List ShadowCall) : StmtTable := calls.foldl call ⟨0, fun _ => none⟩

end StmtTable

/-- The statement with this number and text has been registered, and its id has not been removed since. -/
def StaysOpen (calls : List ShadowCall) (number : Nat) (query : Bytes) : Prop :=
  ∃ before info between, calls = before ++ .register info :: between ∧ registrations before = number ∧
    info.query = query ∧ .remove (registeredId number) ∉ between

/-- The shadow is a faithful table. -/
structure FaithfulIds (calls : List ShadowCall) : Prop where
  /-- an id that is given out is not open -/
  fresh : ∀ before info, before ++ [.register info] <+: calls →
    (MysqlStmtShadow.after before).get
      ((MysqlStmtShadow.after before).register info.query info.numParams info.numColumns info.backendId).2 = none
  /-- the id of the registration or of the last update, until the removal -/
  backendId : ∀ id, (MysqlStmtShadow.after calls).backendId id =
    ((StmtTable.after calls).stands id).map (·.info.backendId)
  /-- other entries are left alone -/
  others : ∀ (c : ShadowCall) id, ¬ c.Touches (MysqlStmtShadow.after calls) id →
    ((MysqlStmtShadow.after calls).call c).get id = (MysqlStmtShadow.after calls).get id
  /-- a job for every open statement -/
  jobs : ∀ job, job ∈ (MysqlStmtShadow.after calls).reprepareJobs ↔
    ∃ number query, StaysOpen calls number query ∧ job = (registeredId number, Com.stmtPrepare :: query)
  /-- and one only -/
  once : ((MysqlStmtShadow.after calls).reprepareJobs.map Prod.fst).Nodup
  /-- for statements that are told apart -/
  apart : ∀ m n query query', StaysOpen calls m query → StaysOpen calls n query' →
    registeredId m = registeredId n → m = n

/-- When an id comes round again, the statement it was given to has been removed. -/
def Retires (calls : List ShadowCall) : Prop :=
  ∀ before info between info', before ++ .register info :: (between ++ [.register info']) <+: calls →
    registrations between + 1 = 2 ^ 32 → .remove (registeredId (registrations before)) ∈ between

/-! ## The shadow is the table -/

section Entries

variable {α : Type} {id p : Nat} {v : α} {l : List (Nat × α)}

theorem lookup_cons_eq (e : Nat × α) : (e :: l).lookup p = if p = e.1 then some e.2 else l.lookup p := by
  rw [List.lookup_cons]
  by_cases hp : p = e.1
  · rw [if_pos hp, hp, beq_self_eq_true]
  · rw [if_neg hp, beq_false_of_ne hp]

theorem lookup_filter_ne :
    (l.filter fun e => !(e.1 == id)).lookup p = if p = id then none else l.lookup p := by
  induction l with
  | nil => exact (ite_self none).symm
  | cons e l ih =>
    rw [List.filter_cons]
    by_cases he : e.1 = id
    · rw [if_neg (by simp [he]), ih, lookup_cons_eq, he]
      split <;> rfl
    · rw [if_pos (by simp [he]), lookup_cons_eq, lookup_cons_eq, ih]
      by_cases hp : p = e.1
      · rw [if_pos hp, if_pos hp, if_neg (hp ▸ he)]
      · rw [if_neg hp, if_neg hp]

theorem lookup_map_entries (f : Nat → α → α) :
    (l.map fun e => (e.1, f e.1 e.2)).lookup p = (l.lookup p).map (f p) := by
  induction l with
  | nil => rfl
  | cons e l ih =>
    rw [List.map_cons, lookup_cons_eq, lookup_cons_eq, ih]
    by_cases hp : p = e.1
    · rw [if_pos hp, if_pos hp, hp]
      rfl
    · rw [if_neg hp, if_neg hp]

theorem lookup_of_mem (h : (l.map Prod.fst).Nodup) (hmem : (p, v) ∈ l) : l.lookup p = some v := by
  induction l with
  | nil => cases hmem
  | cons e l ih =>
    obtain ⟨hhead, htail⟩ := List.nodup_cons.mp h
    rw [lookup_cons_eq]
    obtain rfl | hmem := List.mem_cons.mp hmem
    · exact if_pos rfl
    · have hne : p ≠ e.1 := fun hp => hhead (hp ▸ List.mem_map_of_mem (f := Prod.fst) hmem)
      rw [if_neg hne]
      exact ih htail hmem

theorem keys_filter (h : (l.map Prod.fst).Nodup) (q : Nat × α → Bool) : ((l.filter q).map Prod.fst).Nodup :=
  h.sublist (List.filter_sublist.map Prod.fst)

end Entries

/-- An update, entry by entry. -/
theorem stmts_updateBackendIds (s : MysqlStmtShadow) (newIds : List (Nat × Nat)) :
    (s.updateBackendIds newIds).stmts = s.stmts.map fun e => (e.1, e.2.renew newIds e.1) := by
  refine List.map_congr_left fun e _ => ?_
  rw [MysqlStmtInfo.renew]
  cases newIds.lookup e.1 <;> rfl

/-- The shadow has the entries of the table. -/
structure Represents (s : MysqlStmtShadow) (σ : StmtTable) : Prop where
  nextId : s.nextId = registeredId σ.next
  get : ∀ id, s.get id = (σ.stands id).map (·.info)
  keys : (s.stmts.map Prod.fst).Nodup

namespace Represents

variable {s : MysqlStmtShadow} {σ : StmtTable}

theorem register (h : Represents s σ) (info : MysqlStmtInfo) :
    Represents (s.call (.register info)) (σ.call (.register info)) where
  nextId := by
    change (s.nextId + 1) % 2 ^ 32 = registeredId (σ.next + 1)
    rw [h.nextId, registeredId, registeredId, Nat.mod_add_mod]
  get id := by
    change ((s.nextId, info) :: s.erase s.nextId).lookup id =
      (Function.update σ.stands (registeredId σ.next) (some ⟨σ.next, info⟩) id).map (·.info)
    rw [lookup_cons_eq, MysqlStmtShadow.erase, lookup_filter_ne, ← h.nextId]
    by_cases hid : id = s.nextId
    · rw [if_pos hid, hid, Function.update_self]
      rfl
    · rw [if_neg hid, if_neg hid, Function.update_of_ne hid]
      exact h.get id
  keys := by
    refine List.nodup_cons.mpr ⟨fun hmem => ?_, keys_filter h.keys _⟩
    obtain ⟨e, he, hid⟩ := List.mem_map.mp hmem
    exact absurd (List.mem_filter.mp he).2 (by simp [hid])

theorem remove (h : Represents s σ) (id : Nat) : Represents (s.call (.remove id)) (σ.call (.remove id)) where
  nextId := h.nextId
  get p := by
    change (s.erase id).lookup p = (Function.update σ.stands id none p).map (·.info)
    rw [MysqlStmtShadow.erase, lookup_filter_ne]
    by_cases hp : p = id
    · rw [if_pos hp, hp, Function.update_self]
      rfl
    · rw [if_neg hp, Function.update_of_ne hp]
      exact h.get p
  keys := keys_filter h.keys _

theorem updateBackendIds (h : Represents s σ) (newIds : List (Nat × Nat)) :
    Represents (s.call (.updateBackendIds newIds)) (σ.call (.updateBackendIds newIds)) where
  nextId := h.nextId
  get id := by
    change (s.updateBackendIds newIds).stmts.lookup id = _
    rw [stmts_updateBackendIds, lookup_map_entries (MysqlStmtInfo.renew newIds)]
    change (s.get id).map _ = ((σ.stands id).map _).map _
    rw [h.get id, Option.map_map, Option.map_map]
    rfl
  keys := by
    change ((s.updateBackendIds newIds).stmts.map Prod.fst).Nodup
    rw [stmts_updateBackendIds, List.map_map]
    exact h.keys

theorem call (h : Represents s σ) (c : ShadowCall) : Represents (s.call c) (σ.call c) := by
  cases c with
  | register info => exact h.register info
  | remove id => exact h.remove id
  | updateBackendIds newIds => exact h.updateBackendIds newIds

/-- After the same calls. -/
theorem after (calls : List ShadowCall) : Represents (MysqlStmtShadow.after calls) (StmtTable.after calls) := by
  induction calls using List.reverseRecOn with
  | nil => exact ⟨rfl, fun _ => rfl, List.nodup_nil⟩
  | append_singleton calls c ih =>
    rw [MysqlStmtShadow.after, StmtTable.after, List.foldl_concat, List.foldl_concat]
    exact ih.call c

end Represents

/-! ## Statements by their numbers -/

section Numbers

variable {calls before between : List ShadowCall} {c : ShadowCall} {info : MysqlStmtInfo} {id n : Nat} {o : OpenStmt}

theorem after_concat : StmtTable.after (calls ++ [c]) = (StmtTable.after calls).call c := List.foldl_concat ..

/-- Statements are numbered in order. -/
theorem next_after (calls : List ShadowCall) : (StmtTable.after calls).next = registrations calls := by
  induction calls using List.reverseRecOn with
  | nil => rfl
  | append_singleton calls c ih =>
    rw [after_concat, registrations, List.countP_append, ← registrations]
    cases c with
    | register info => exact congrArg (· + 1) ih
    | remove id => exact ih
    | updateBackendIds newIds => exact ih

theorem StaysOpen.concat {query : Bytes} (h : StaysOpen calls n query) (hc : c ≠ .remove (registeredId n)) :
    StaysOpen (calls ++ [c]) n query := by
  obtain ⟨before, info, between, rfl, hnumber, hquery, hopen⟩ := h
  refine ⟨before, info, between ++ [c], by rw [List.append_assoc, List.cons_append], hnumber, hquery, fun hmem => ?_⟩
  obtain hmem | hmem := List.mem_append.mp hmem
  · exact hopen hmem
  · exact hc (List.mem_singleton.mp hmem).symm

/-- What an id stands for has been registered under it, and not been removed since. -/
theorem staysOpen_of_stands (h : (StmtTable.after calls).stands id = some o) :
    id = registeredId o.number ∧ StaysOpen calls o.number o.info.query := by
  induction calls using List.reverseRecOn generalizing o with
  | nil => cases h
  | append_singleton calls c ih =>
    rw [after_concat] at h
    cases c with
    | register info =>
      change Function.update (StmtTable.after calls).stands _ _ id = some o at h
      by_cases hid : id = registeredId (StmtTable.after calls).next
      · rw [hid, Function.update_self] at h
        obtain rfl := Option.some.inj h
        exact ⟨hid, calls, info, [], rfl, (next_after calls).symm, rfl, List.not_mem_nil⟩
      · rw [Function.update_of_ne hid] at h
        exact ⟨(ih h).1, (ih h).2.concat nofun⟩
    | remove removed =>
      change Function.update (StmtTable.after calls).stands removed none id = some o at h
      by_cases hid : id = removed
      · rw [hid, Function.update_self] at h
        cases h
      · rw [Function.update_of_ne hid] at h
        refine ⟨(ih h).1, (ih h).2.concat fun hc => hid ?_⟩
        rw [(ih h).1, ShadowCall.remove.inj hc]
    | updateBackendIds newIds =>
      obtain ⟨o', ho', rfl⟩ := Option.map_eq_some_iff.mp h
      exact ⟨(ih ho').1, (ih ho').2.concat nofun⟩

/-- Ids differ for 2^32 numbers in a row. -/
theorem registeredId_ne {m n : Nat} (hlt : m < n) (hn : n < m + 2 ^ 32) : registeredId m ≠ registeredId n := by
  rw [registeredId, registeredId]
  omega

theorem registrations_append (l l' : List ShadowCall) : registrations (l ++ l') = registrations l + registrations l' :=
  List.countP_append

theorem registrations_register (info : MysqlStmtInfo) (l : List ShadowCall) :
    registrations (.register info :: l) = registrations l + 1 := List.countP_cons_of_pos rfl

/-- A statement stands for its id until that is removed or comes round again. -/
theorem stands_of_between (hopen : .remove (registeredId (registrations before)) ∉ between)
    (hcount : registrations between < 2 ^ 32) :
    ∃ o, (StmtTable.after (before ++ .register info :: between)).stands (registeredId (registrations before)) = some o ∧
      o.number = registrations before ∧ o.info.query = info.query := by
  induction between using List.reverseRecOn with
  | nil =>
    rw [after_concat]
    refine ⟨⟨(StmtTable.after before).next, info⟩, ?_, next_after before, rfl⟩
    rw [← next_after before]
    exact Function.update_self ..
  | append_singleton between c ih =>
    have hcount' : registrations between ≤ registrations (between ++ [c]) := by
      rw [registrations_append]
      exact Nat.le_add_right _ _
    obtain ⟨o, hstands, hnumber, hquery⟩ := ih (fun h => hopen (List.mem_append_left _ h))
      (Nat.lt_of_le_of_lt hcount' hcount)
    rw [← List.cons_append, ← List.append_assoc, after_concat]
    cases c with
    | register info' =>
      have hnext : (StmtTable.after (before ++ .register info :: between)).next =
          registrations before + (registrations between + 1) := by
        rw [next_after, registrations_append, registrations_register]
      rw [registrations_append] at hcount
      have hlt : registrations between + 1 < 2 ^ 32 := hcount
      refine ⟨o, ?_, hnumber, hquery⟩
      refine (Function.update_of_ne ?_ _ _).trans hstands
      rw [hnext]
      exact registeredId_ne (by omega) (by omega)
    | remove id =>
      refine ⟨o, (Function.update_of_ne (fun hid => hopen ?_) _ _).trans hstands, hnumber, hquery⟩
      rw [hid]
      exact List.mem_append_right _ (List.mem_singleton_self _)
    | updateBackendIds newIds =>
      exact ⟨{ o with info := o.info.renew newIds _ }, congrArg (Option.map _) hstands, hnumber, hquery⟩

/-- A registration, so many behind the beginning. -/
theorem exists_registration {k : Nat} (h : k < registrations calls) :
    ∃ before info behind, calls = before ++ .register info :: behind ∧ registrations before = k := by
  induction calls generalizing k with
  | nil => exact absurd h (Nat.not_lt_zero k)
  | cons c calls ih =>
    have hskip : registrations [c] ≤ k → ∃ before info behind, c :: calls = before ++ .register info :: behind ∧
        registrations before = k := by
      intro hle
      rw [← List.singleton_append, registrations_append] at h
      obtain ⟨before, info, behind, rfl, hcount⟩ := ih (by omega : k - registrations [c] < registrations calls)
      refine ⟨c :: before, info, behind, rfl, ?_⟩
      rw [← List.singleton_append, registrations_append]
      omega
    cases c with
    | register info =>
      obtain rfl | hk := Nat.eq_zero_or_pos k
      · exact ⟨[], info, calls, rfl, rfl⟩
      · exact hskip hk
    | remove id => exact hskip (Nat.zero_le k)
    | updateBackendIds newIds => exact hskip (Nat.zero_le k)

/-- Until it is removed, fewer than 2^32 statements are registered behind one. -/
theorem Retires.lt (h : Retires (before ++ .register info :: between))
    (hopen : .remove (registeredId (registrations before)) ∉ between) : registrations between < 2 ^ 32 := by
  by_contra hnot
  obtain ⟨between, info', behind, rfl, hcount⟩ :=
    exists_registration (by omega : 2 ^ 32 - 1 < registrations between)
  refine hopen (List.mem_append_left _ (h before info between info' ⟨behind, ?_⟩ (by omega)))
  simp only [List.append_assoc, List.cons_append, List.nil_append]

/-- A statement that stays open still stands for its id. -/
theorem Retires.stands (h : Retires calls) {query : Bytes} (hopen : StaysOpen calls n query) :
    ∃ o, (StmtTable.after calls).stands (registeredId n) = some o ∧ o.number = n ∧ o.info.query = query := by
  obtain ⟨before, info, between, rfl, rfl, rfl, hnot⟩ := hopen
  exact stands_of_between hnot (h.lt hnot)

/-- An id that comes round again has no meaning. -/
theorem Retires.fresh (h : Retires (calls ++ [.register info])) :
    (StmtTable.after calls).stands (registeredId (StmtTable.after calls).next) = none := by
  obtain hnone | ⟨o, ho⟩ := ((StmtTable.after calls).stands _).eq_none_or_eq_some
  · exact hnone
  exfalso
  obtain ⟨hid, before, info', between, rfl, hnumber, -, hnot⟩ := staysOpen_of_stands ho
  rw [List.append_assoc, List.cons_append] at h
  rw [← hnumber] at hid hnot
  have hlt := h.lt fun hmem => (List.mem_append.mp hmem).elim hnot (by simp)
  rw [registrations_append] at hlt
  have hcount : registrations between + 1 < 2 ^ 32 := hlt
  rw [next_after, registrations_append, registrations_register] at hid
  exact registeredId_ne (by omega) (by omega) hid.symm

/-- The open statements have different ids. -/
theorem Retires.apart (h : Retires calls) {m n : Nat} {query query' : Bytes} (hm : StaysOpen calls m query)
    (hn : StaysOpen calls n query') (heq : registeredId m = registeredId n) : m = n := by
  obtain ⟨o, ho, hnumber, -⟩ := h.stands hm
  obtain ⟨o', ho', hnumber', -⟩ := h.stands hn
  rw [heq, ho'] at ho
  rw [← hnumber, ← hnumber', Option.some.inj ho]

end Numbers

/-! ## Faithful runs -/

/-- Entries that a call is not about. -/
theorem get_call {s : MysqlStmtShadow} {c : ShadowCall} {p : Nat} (h : ¬ c.Touches s p) :
    (s.call c).get p = s.get p := by
  cases c with
  | register info =>
    have hne : p ≠ s.nextId := h
    change ((s.nextId, _) :: s.erase s.nextId).lookup p = s.stmts.lookup p
    rw [lookup_cons_eq, if_neg hne, MysqlStmtShadow.erase, lookup_filter_ne, if_neg hne]
  | remove removed =>
    have hne : p ≠ removed := h
    change (s.erase removed).lookup p = s.stmts.lookup p
    rw [MysqlStmtShadow.erase, lookup_filter_ne, if_neg hne]
  | updateBackendIds newIds =>
    have hnone : newIds.lookup p = none := Option.not_isSome_iff_eq_none.mp h
    have hsame : MysqlStmtInfo.renew newIds p = fun info => info := by
      funext info
      rw [MysqlStmtInfo.renew, hnone]
      rfl
    change (s.updateBackendIds newIds).stmts.lookup p = s.stmts.lookup p
    rw [stmts_updateBackendIds, lookup_map_entries (MysqlStmtInfo.renew newIds), hsame]
    exact Option.map_id'

section Runs

variable {calls before : List ShadowCall} {info : MysqlStmtInfo}

/-- The id that is given out is that of the next number. -/
theorem get_register (calls : List ShadowCall) (info : MysqlStmtInfo) :
    (MysqlStmtShadow.after calls).get
        ((MysqlStmtShadow.after calls).register info.query info.numParams info.numColumns info.backendId).2 =
      ((StmtTable.after calls).stands (registeredId (StmtTable.after calls).next)).map (·.info) := by
  have hrep := Represents.after calls
  rw [← hrep.nextId]
  exact hrep.get _

theorem Retires.jobs (h : Retires calls) (job : Nat × Bytes) :
    job ∈ (MysqlStmtShadow.after calls).reprepareJobs ↔
      ∃ number query, StaysOpen calls number query ∧ job = (registeredId number, Com.stmtPrepare :: query) := by
  have hrep := Represents.after calls
  constructor
  · intro hjob
    obtain ⟨⟨p, info⟩, he, rfl⟩ := List.mem_map.mp hjob
    obtain ⟨o, ho, rfl⟩ := Option.map_eq_some_iff.mp ((hrep.get p).symm.trans (lookup_of_mem hrep.keys he))
    obtain ⟨hid, hopen⟩ := staysOpen_of_stands ho
    exact ⟨o.number, o.info.query, hopen, congrArg (·, _) hid⟩
  · rintro ⟨number, query, hopen, rfl⟩
    obtain ⟨o, ho, rfl, rfl⟩ := h.stands hopen
    have hget : (MysqlStmtShadow.after calls).get (registeredId o.number) = some o.info := by
      rw [hrep.get, ho]
      rfl
    exact List.mem_map_of_mem (mem_of_lookup hget)

theorem Retires.faithfulIds (h : Retires calls) : FaithfulIds calls where
  fresh before info hbegin := by
    have hbefore : Retires (before ++ [.register info]) := fun b i bt i' hb => h b i bt i' (hb.trans hbegin)
    rw [get_register, hbefore.fresh]
    rfl
  backendId id := by
    rw [MysqlStmtShadow.backendId, (Represents.after calls).get, Option.map_map]
    rfl
  others c id hc := get_call hc
  jobs := h.jobs
  once := by
    change (((MysqlStmtShadow.after calls).stmts.map _).map Prod.fst).Nodup
    rw [List.map_map]
    exact (Represents.after calls).keys
  apart _ _ _ _ := h.apart

/-- A run with no more registrations than ids. -/
theorem retires_of_few (h : registrations calls ≤ 2 ^ 32) : Retires calls := by
  intro before info between info' hbegin hcount
  have hle := Nat.le_trans (hbegin.sublist.countP_le (p := fun c => c matches .register _)) h
  change registrations _ ≤ _ at hle
  rw [registrations_append, registrations_register, registrations_append, registrations_register] at hle
  omega

/-- An id that comes round while it is open is given out once more. -/
theorem given_twice {between : List ShadowCall} (hcount : registrations between + 1 = 2 ^ 32)
    (hopen : .remove (registeredId (registrations before)) ∉ between) (info info' : MysqlStmtInfo) :
    (MysqlStmtShadow.after (before ++ .register info :: between)).get
      ((MysqlStmtShadow.after (before ++ .register info :: between)).register info'.query info'.numParams
        info'.numColumns info'.backendId).2 ≠ none := by
  obtain ⟨o, ho, -⟩ := stands_of_between hopen (by omega : registrations between < 2 ^ 32)
  have hround : registeredId (registrations before + (registrations between + 1)) =
      registeredId (registrations before) := by
    rw [hcount, registeredId, registeredId]
    omega
  rw [get_register, next_after, registrations_append, registrations_register, hround, ho]
  exact Option.some_ne_none _

end Runs

/-- **The ids of statements**: the shadow is a faithful table in a run if and only if no id comes round while its
statement is open. -/
theorem faithfulIds_iff (calls : List ShadowCall) : FaithfulIds calls ↔ Retires calls := by
  refine ⟨fun h before info between info' hbegin hcount => ?_, Retires.faithfulIds⟩
  by_contra hopen
  refine given_twice hcount hopen info info' (h.fresh (before ++ .register info :: between) info' ?_)
  rwa [List.append_assoc, List.cons_append]

/-- So many statements, each of which is closed at once. -/
def closedAtOnce (info : MysqlStmtInfo) (n : Nat) : List ShadowCall :=
  (List.range n).flatMap fun k => [.register info, .remove (k + 2)]

theorem registrations_closedAtOnce (info : MysqlStmtInfo) (n : Nat) : registrations (closedAtOnce info n) = n := by
  induction n with
  | zero => rfl
  | succ n ih =>
    rw [closedAtOnce, List.range_succ, List.flatMap_append, registrations_append]
    exact congrArg (· + 1) ih

/-- A statement that stays open while the ids come round. -/
theorem not_faithfulIds_around (info : MysqlStmtInfo) {n : Nat} (hn : n + 1 = 2 ^ 32) :
    ¬ FaithfulIds (.register info :: (closedAtOnce info n ++ [.register info])) := by
  intro h
  have hopen : ShadowCall.remove (registeredId (registrations [])) ∉ closedAtOnce info n := by
    intro hmem
    obtain ⟨k, -, hk⟩ := List.mem_flatMap.mp hmem
    have hid : registeredId (registrations []) = k + 2 := by simpa using hk
    rw [show registeredId (registrations []) = 1 from rfl] at hid
    omega
  have hcount : registrations (closedAtOnce info n) + 1 = 2 ^ 32 := by rw [registrations_closedAtOnce, hn]
  exact given_twice hcount hopen info info (h.fresh (.register info :: closedAtOnce info n) info List.prefix_rfl)

/-- `DO 1` -/
theorem faithfulIds_not_always : ¬ ∀ calls, FaithfulIds calls := fun h =>
  not_faithfulIds_around ⟨[0x44, 0x4F, 0x20, 0x31], 0, 0, 1⟩ (by decide : 2 ^ 32 - 1 + 1 = 2 ^ 32) (h _)

end TurbineProxy
