import TurbineProxy.Text

/-!
# TOML values and derived deserialisers

The values a TOML document denotes, and what `#[derive(Deserialize)]` makes of them: a structure is read
key by key, a key it does not know is skipped, and a missing one is an error unless the field is an
`Option` or has a default.
-/

namespace TurbineProxy.Toml

/-- A TOML value. -/
inductive Value : Type where
  | string (s : Str)
  | integer (n : Int)
  | boolean (b : Bool)
  | array (vs : List Value)
  | table (entries : List (Str × Value))
  /-- a float or a date, which no field takes -/
  | other

/-- The keys of a table and their values. -/
abbrev Table : Type := List (Str × Value)

variable {α : Type}

/-! ## Values -/

/-- `String` -/
def Value.asString : Value → Option Str
  | .string s => some s
  | _ => none

/-- `bool` -/
def Value.asBool : Value → Option Bool
  | .boolean b => some b
  | _ => none

/-- An unsigned integer of some width, made from a number below `size`. -/
def Value.asUnsigned (size : Nat) (make : Nat → α) : Value → Option α
  | .integer n => if 0 ≤ n ∧ n < size then some (make n.toNat) else none
  | _ => none

/-- `u64`, and `usize` -/
def Value.asU64 : Value → Option UInt64 := Value.asUnsigned (2 ^ 64) UInt64.ofNat

/-- `u32` -/
def Value.asU32 : Value → Option UInt32 := Value.asUnsigned (2 ^ 32) UInt32.ofNat

/-- `u8` -/
def Value.asU8 : Value → Option UInt8 := Value.asUnsigned (2 ^ 8) UInt8.ofNat

/-- `Vec<T>` -/
def Value.asList (decode : Value → Option α) : Value → Option (List α)
  | .array vs => vs.mapM decode
  | _ => none

/-- A structure. -/
def Value.asStruct (decode : Table → Option α) : Value → Option α
  | .table entries => decode entries
  | _ => none

/-- An enumeration without data: one of its names. -/
def Value.asName (names : List (String × α)) : Value → Option α
  | .string s => names.findSome? fun n => if n.1.toList = s then some n.2 else none
  | _ => none

/-! ## Fields -/

/-- The value of a key. -/
def Table.get (t : Table) (key : String) : Option Value := t.lookup key.toList

/-- A field: decoded when the key is there, `missing` when it is not. -/
def field (t : Table) (key : String) (decode : Value → Option α) (missing : Option α) : Option α :=
  match t.get key with
  | some v => decode v
  | none => missing

/-- A field that must be there. -/
def required (t : Table) (key : String) (decode : Value → Option α) : Option α := field t key decode none

/-- A field with `#[serde(default)]` -/
def defaulted (t : Table) (key : String) (decode : Value → Option α) (default : α) : Option α :=
  field t key decode (some default)

/-- An `Option` -/
def optional (t : Table) (key : String) (decode : Value → Option α) : Option (Option α) :=
  field t key (fun v => (decode v).map some) (some none)

/-- One key read in two ways: as an `Option`, and with a default. -/
theorem defaulted_of_optional {t : Table} {key : String} {decode : Value → Option α} {o : Option α}
    (h : optional t key decode = some o) (default : α) :
    defaulted t key decode default = some (o.getD default) := by
  simp only [optional, defaulted, field] at h ⊢
  split at h
  · obtain ⟨a, ha, rfl⟩ := Option.map_eq_some_iff.1 h
    exact ha
  · cases h
    rfl

/-- One key read in two ways: as an `Option`, and as a field that must be there. -/
theorem required_of_optional {t : Table} {key : String} {decode : Value → Option α} {o : Option α}
    (h : optional t key decode = some o) : required t key decode = o := by
  simp only [optional, required, field] at h ⊢
  split at h
  · obtain ⟨a, ha, rfl⟩ := Option.map_eq_some_iff.1 h
    exact ha
  · cases h
    rfl

/-! ## Reading a known table -/

theorem optional_of_missing {t : Table} {key : String} {decode : Value → Option α}
    (h : t.get key = none) : optional t key decode = some none := by
  rw [optional, field, h]

theorem defaulted_of_missing {t : Table} {key : String} {decode : Value → Option α} {default : α}
    (h : t.get key = none) : defaulted t key decode default = some default := by
  rw [defaulted, field, h]

theorem required_of_missing {t : Table} {key : String} {decode : Value → Option α}
    (h : t.get key = none) : required t key decode = none := by
  rw [required, field, h]

theorem required_of_get {t : Table} {key : String} {v : Value} (h : t.get key = some v)
    (decode : Value → Option α) : required t key decode = decode v := by
  rw [required, field, h]

theorem defaulted_of_get {t : Table} {key : String} {v : Value} (h : t.get key = some v)
    (decode : Value → Option α) (default : α) : defaulted t key decode default = decode v := by
  rw [defaulted, field, h]

theorem optional_string {t : Table} {key : String} {o : Option Str}
    (h : t.get key = o.map Value.string) : optional t key Value.asString = some o := by
  rw [optional, field, h]
  cases o with
  | none => rfl
  | some s => rfl

/-- A string that is left out when it is empty. -/
theorem defaulted_string {t : Table} {key : String} {s : Str}
    (h : t.get key = if s.isEmpty then none else some (.string s)) :
    defaulted t key Value.asString [] = some s := by
  rw [defaulted, field, h]
  cases s with
  | nil => rfl
  | cons c s => rfl

/-- A boolean that is left out when it has its default. -/
theorem defaulted_boolean {t : Table} {key : String} {b default : Bool}
    (h : t.get key = if b = default then none else some (.boolean b)) :
    defaulted t key Value.asBool default = some b := by
  rw [defaulted, field, h]
  split
  · rename_i hsame
    split at hsame
    · cases hsame
    · obtain rfl := Option.some.inj hsame
      rfl
  · rename_i hnone
    split at hnone
    · rename_i hsame
      rw [hsame]
    · cases hnone

end TurbineProxy.Toml
