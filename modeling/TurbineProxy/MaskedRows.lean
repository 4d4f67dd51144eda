import TurbineProxy.ConfigSecrets

/-!
# Rows that are written back

The dashboard lists backends and users with `***` in the place of their passwords, and takes whole rows to update them.
Nothing on the way back knows the mask: a row that is written back as it was listed has it for its password
(`masked_update_iff`).
-/

namespace TurbineProxy.Config

open Sql Str

/-- What is listed for a password. -/
def passwordMask : Str := "***".toList

/-- A backend as it is listed. -/
def BackendRow.masked (r : BackendRow) : BackendRow := { r with password := passwordMask }

/-- A user as it is listed. -/
def UserRow.masked (r : UserRow) : UserRow := { r with password := passwordMask }

/-- `list_config_backends` -/
def listConfigBackends (db : Db) (protocol : Protocol) : List (Int × BackendRow) :=
  (listBackends db protocol).map fun r => (r.1, r.2.masked)

/-- `list_config_users` -/
def listConfigUsers (db : Db) : List (Int × UserRow) := (listUsers db).map fun r => (r.1, r.2.masked)

section Requests

variable (sur : Surroundings) (nonce : Nonce) (fails : Nat → Bool) (authorIp : Str) (db : Db)

/-- `update_config_backend`: what it makes of the database. The protocol is a parameter of the request. -/
def updateConfigBackend (id : Int) (protocol : Protocol) (body : BackendRow) : Db :=
  (exec fails 0 (updateBackend sur nonce id { body with protocol } authorIp) db).1

/-- `update_config_user`: what it makes of the database. -/
def updateConfigUser (id : Int) (body : UserRow) : Db :=
  (exec fails 0 (updateUser sur nonce id body authorIp) db).1

end Requests

/-! ## The script of an update -/

/-- A script of two statements, of which the second only logs, changes what the first does. -/
theorem exec_logged {β : Type} (f : Db → β) (fails : Nat → Bool) (first : Stmt Db) (log : Db → Db) (db : Db)
    (hlog : ∀ db, f (log db) = f db) :
    f (exec fails 0 [first, fun db => some (log db)] db).1 =
      if fails 0 then f db else ((first db).map f).getD (f db) := by
  rw [exec]
  by_cases hfails : fails 0 = true
  · rw [if_pos hfails, if_pos hfails]
  rw [if_neg hfails, if_neg hfails]
  cases first db with
  | none => rfl
  | some db' =>
    dsimp only
    rw [exec]
    split
    · rfl
    · exact hlog db'

/-! ## What is left of the secret -/

/-- The stored password is what the mask is stored as. -/
def StoresMask (sur : Surroundings) (nonce : Nonce) (password : Str) : Prop :=
  (loadEncryptionKey sur = none ∧ password = passwordMask) ∨
    ∃ key, loadEncryptionKey sur = some key ∧ password = encrypt sur passwordMask key nonce

/-- Another user has the name. -/
def NameTaken (db : Db) (id : Int) (name : Str) : Prop := ∃ r ∈ db.users.rows, r.1 ≠ id ∧ r.2.name = name

/-- A backend has kept its secret and the column that is not listed. -/
def BackendKept (before after : Db) (id : Int) : Prop :=
  ∀ r, (id, r) ∈ before.backends.rows →
    ∃ r', (id, r') ∈ after.backends.rows ∧ r'.password = r.password ∧ r'.protocol = r.protocol

/-- A user has kept its secret. -/
def UserKept (before after : Db) (id : Int) : Prop :=
  ∀ r, (id, r) ∈ before.users.rows → ∃ r', (id, r') ∈ after.users.rows ∧ r'.password = r.password

section Updates

variable {sur : Surroundings} {nonce : Nonce} {fails : Nat → Bool} {authorIp : Str} {db : Db} {id : Int}

/-- The mask is a literal like any other. -/
theorem storesMask_iff (password : Str) :
    prepareForStorage sur passwordMask (loadEncryptionKey sur) nonce = password ↔ StoresMask sur nonce password := by
  rw [StoresMask]
  cases loadEncryptionKey sur with
  | none =>
    have hmask : prepareForStorage sur passwordMask none nonce = passwordMask := rfl
    simp [hmask, eq_comm]
  | some key =>
    have hmask : prepareForStorage sur passwordMask (some key) nonce = encrypt sur passwordMask key nonce := rfl
    simp [hmask, eq_comm]

theorem backendKept_iff {r : BackendRow} (hr : (id, r) ∈ db.backends.rows) (edit : BackendRow) :
    BackendKept db (updateConfigBackend sur nonce fails authorIp db id r.protocol
        { edit with password := r.masked.password }) id ↔
      fails 0 = true ∨ StoresMask sur nonce r.password := by
  have hafter := exec_logged Db.backends fails (fun db => some { db with
    backends := db.backends.updateWhere (fun row => row.1 = id && row.2.protocol = r.protocol) fun _ =>
      { edit with
        protocol := r.protocol
        password := prepareForStorage sur passwordMask (loadEncryptionKey sur) nonce } })
    (fun db => db.logChange "backend" (some id) "update" authorIp) db fun _ => rfl
  change (updateConfigBackend sur nonce fails authorIp db id r.protocol
    { edit with password := r.masked.password }).backends = _ at hafter
  rw [BackendKept, hafter]
  by_cases hfails : fails 0 = true
  · rw [if_pos hfails]
    exact iff_of_true (fun r' hr' => ⟨r', hr', rfl, rfl⟩) (.inl hfails)
  rw [if_neg hfails, or_iff_right hfails, ← storesMask_iff]
  rw [Option.map_some, Option.getD_some]
  have hp : (decide ((id, r).1 = id) && decide ((id, r).2.protocol = r.protocol)) = true := by simp
  constructor
  · intro h
    obtain ⟨r', hr', hpassword, -⟩ := h r hr
    rw [Table.mem_updateWhere _ hr hp] at hr'
    rw [hr'] at hpassword
    exact hpassword
  · rintro hstores r' hr'
    obtain rfl : r = r' := congrArg Prod.snd (db.backends.eq_of_id hr hr' rfl)
    exact ⟨_, (Table.mem_updateWhere _ hr hp).mpr rfl, hstores, rfl⟩

/-- The names stay unique unless another user has the new one. -/
theorem updateUser_eq_none_iff {r : UserRow} (hr : (id, r) ∈ db.users.rows) (new : UserRow) :
    db.updateUser id new = none ↔ NameTaken db id new.name := by
  have hrows : db.users.rows.Nodup := db.users.ascending.imp fun {_ _} h heq => Int.ne_of_lt h (congrArg Prod.fst heq)
  have hnames : ((db.users.updateWhere (fun r => r.1 = id) fun _ => new).contents.map UserRow.name) =
      db.users.rows.map fun q => if q.1 = id then new.name else q.2.name := by
    rw [Table.contents, Table.updateWhere, List.map_map, List.map_map]
    refine List.map_congr_left fun q _ => ?_
    by_cases hq : q.1 = id <;> simp [hq]
  have hunique : ∀ q ∈ db.users.rows, ∀ q' ∈ db.users.rows, q.2.name = q'.2.name → q = q' := by
    have hnodup := db.unique
    rw [Table.contents, List.map_map] at hnodup
    exact fun q hq q' hq' h => List.inj_on_of_nodup_map hnodup hq hq' h
  have hrefused : db.updateUser id new = none ↔
      ¬((db.users.updateWhere (fun r => r.1 = id) fun _ => new).contents.map UserRow.name).Nodup := by
    rw [Db.updateUser, dite_eq_right_iff]
    exact ⟨fun h hnodup => Option.some_ne_none _ (h hnodup), fun h hnodup => absurd hnodup h⟩
  rw [hrefused, hnames, List.nodup_map_iff_inj_on hrows]
  constructor
  · intro h
    by_contra htaken
    refine h fun q hq q' hq' heq => ?_
    have hother : ∀ q ∈ db.users.rows, q.1 ≠ id → q.2.name ≠ new.name := fun q hq hne hname =>
      htaken ⟨q, hq, hne, hname⟩
    by_cases hid : q.1 = id
    · by_cases hid' : q'.1 = id
      · exact db.users.eq_of_id hq hq' (hid.trans hid'.symm)
      · rw [if_pos hid, if_neg hid'] at heq
        exact absurd heq.symm (hother q' hq' hid')
    · by_cases hid' : q'.1 = id
      · rw [if_neg hid, if_pos hid'] at heq
        exact absurd heq (hother q hq hid)
      · rw [if_neg hid, if_neg hid'] at heq
        exact hunique q hq q' hq' heq
  · rintro ⟨q, hq, hne, hname⟩ h
    have hsame := h q hq (id, r) hr (by rw [if_neg hne, if_pos rfl, hname])
    exact absurd (congrArg Prod.fst hsame) hne

theorem userKept_iff {r : UserRow} (hr : (id, r) ∈ db.users.rows) (edit : UserRow) :
    UserKept db (updateConfigUser sur nonce fails authorIp db id { edit with password := r.masked.password }) id ↔
      fails 0 = true ∨ NameTaken db id edit.name ∨ StoresMask sur nonce r.password := by
  have hafter := exec_logged Db.users fails (fun db => db.updateUser id
    { edit with password := prepareForStorage sur passwordMask (loadEncryptionKey sur) nonce })
    (fun db => db.logChange "user" (some id) "update" authorIp) db fun _ => rfl
  change (updateConfigUser sur nonce fails authorIp db id
    { edit with password := r.masked.password }).users = _ at hafter
  rw [UserKept, hafter]
  by_cases hfails : fails 0 = true
  · rw [if_pos hfails]
    exact iff_of_true (fun r' hr' => ⟨r', hr', rfl⟩) (.inl hfails)
  rw [if_neg hfails, or_iff_right hfails]
  have hnone := updateUser_eq_none_iff hr
    { edit with password := prepareForStorage sur passwordMask (loadEncryptionKey sur) nonce }
  by_cases htaken : NameTaken db id edit.name
  · rw [hnone.mpr htaken]
    exact iff_of_true (fun r' hr' => ⟨r', hr', rfl⟩) (.inl htaken)
  rw [or_iff_right htaken, ← storesMask_iff]
  cases hupdate : db.updateUser id
      { edit with password := prepareForStorage sur passwordMask (loadEncryptionKey sur) nonce } with
  | none => exact absurd (hnone.mp hupdate) htaken
  | some db' =>
    have husers : db'.users = db.users.updateWhere (fun r => r.1 = id) fun _ =>
        { edit with password := prepareForStorage sur passwordMask (loadEncryptionKey sur) nonce } := by
      rw [Db.updateUser] at hupdate
      split at hupdate
      · obtain rfl := Option.some.inj hupdate
        rfl
      · cases hupdate
    have hp : decide ((id, r).1 = id) = true := by simp
    rw [Option.map_some, Option.getD_some, husers]
    constructor
    · intro h
      obtain ⟨r', hr', hpassword⟩ := h r hr
      rw [Table.mem_updateWhere _ hr hp] at hr'
      rw [hr'] at hpassword
      exact hpassword
    · rintro hstores r' hr'
      obtain rfl : r = r' := congrArg Prod.snd (db.users.eq_of_id hr hr' rfl)
      exact ⟨_, (Table.mem_updateWhere _ hr hp).mpr rfl, hstores⟩

/-- A backend is listed with the mask, among those of its protocol. -/
theorem mem_listConfigBackends {r : BackendRow} (hr : (id, r) ∈ db.backends.rows) :
    (id, r.masked) ∈ listConfigBackends db r.protocol := by
  refine List.mem_map.mpr ⟨(id, r), (mem_orderBy _).mpr (List.mem_filter.mpr ⟨hr, ?_⟩), rfl⟩
  exact decide_eq_true rfl

theorem mem_listConfigUsers {r : UserRow} (hr : (id, r) ∈ db.users.rows) : (id, r.masked) ∈ listConfigUsers db :=
  List.mem_map.mpr ⟨(id, r), (mem_orderBy _).mpr hr, rfl⟩

/-- Every row is listed with the mask; and **exactly if** the update is not carried out, or the stored secret is the
mask already, writing the listed row back, with any other edits, leaves the secret as it was. -/
theorem masked_update_iff (sur : Surroundings) (nonce : Nonce) (fails : Nat → Bool) (authorIp : Str) (db : Db) :
    (∀ row : { row // row ∈ db.backends.rows }, (row.1.1, row.1.2.masked) ∈ listConfigBackends db row.1.2.protocol ∧
      ∀ edit : BackendRow, BackendKept db (updateConfigBackend sur nonce fails authorIp db row.1.1 row.1.2.protocol
          { edit with password := row.1.2.masked.password }) row.1.1 ↔
        fails 0 = true ∨ StoresMask sur nonce row.1.2.password) ∧
    ∀ row : { row // row ∈ db.users.rows }, (row.1.1, row.1.2.masked) ∈ listConfigUsers db ∧
      ∀ edit : UserRow, UserKept db (updateConfigUser sur nonce fails authorIp db row.1.1
          { edit with password := row.1.2.masked.password }) row.1.1 ↔
        fails 0 = true ∨ NameTaken db row.1.1 edit.name ∨ StoresMask sur nonce row.1.2.password :=
  ⟨fun row => ⟨mem_listConfigBackends row.2, backendKept_iff row.2⟩,
    fun row => ⟨mem_listConfigUsers row.2, userKept_iff row.2⟩⟩

end Updates

/-! ## A password that is lost -/

/-- A user of the proxy. -/
def appUser : UserRow := ⟨"app".toList, "s3cret".toList, true, 0, true⟩

/-- A store with one user. -/
def oneUserDb : Db := { Db.empty with users := Table.empty.insert appUser, unique := List.nodup_singleton _ }

/-- The listed row, written back with another limit, makes `***` the password. -/
theorem mask_replaces_password : ¬ ∀ (sur : Surroundings) (nonce : Nonce) (db : Db) (id : Int) (row edit : UserRow),
    (id, row) ∈ listConfigUsers db →
      UserKept db (updateConfigUser sur nonce (fun _ => false) [] db id { edit with password := row.password }) id := by
  intro hclaim
  have hlisted : (1, appUser.masked) ∈ listConfigUsers oneUserDb := List.mem_singleton.mpr rfl
  obtain ⟨r', hr', hpassword⟩ := hclaim bareSurroundings ⟨List.replicate 12 0, rfl⟩ oneUserDb 1 appUser.masked
    { appUser with maxConnections := 5 } hlisted appUser (List.mem_singleton.mpr rfl)
  obtain rfl : r' = { appUser with maxConnections := 5, password := passwordMask } :=
    congrArg Prod.snd (List.mem_singleton.mp hr')
  exact absurd hpassword (by decide)

end TurbineProxy.Config
