import Mathlib.Data.List.Dedup
import TurbineProxy.Toml

/-!
# TOML documents of sections

A document whose sections have one value on a line, as a text and as the table it denotes. Sections in
double brackets with one name are the elements of an array; a name in single brackets may be given once.
The values are strings in double quotes, integers and booleans.
-/

namespace TurbineProxy.Toml

/-! ## Strings in double quotes -/

/-- The value of a hexadecimal digit. -/
def hexDigit (c : Char) : Option Nat :=
  if '0' ≤ c ∧ c ≤ '9' then some (c.toNat - 48)
  else if 'a' ≤ c ∧ c ≤ 'f' then some (c.toNat - 87)
  else if 'A' ≤ c ∧ c ≤ 'F' then some (c.toNat - 55)
  else none

/-- The character with a hexadecimal number, unless that is a surrogate or too high. -/
def hexChar (digits : Str) : Option Char := do
  let n ← digits.foldlM (fun n c => (hexDigit c).map (16 * n + ·)) 0
  if n.isValidChar then some (Char.ofNat n) else none

/-- The escape sequences of two characters: the second one, and what they stand for. -/
def escapes : List (Char × Char) :=
  [('b', '\x08'), ('t', '\t'), ('n', '\n'), ('f', '\x0c'), ('r', '\r'), ('"', '"'), ('\\', '\\')]

/-- A character that stands for itself. -/
def standsForItself (c : Char) : Bool :=
  c = '\t' || (32 ≤ c.toNat && c.toNat ≠ 127 && c ≠ '"' && c ≠ '\\')

/-- The string a text between double quotes stands for. -/
def unescape : Str → Option Str
  | [] => some []
  | c :: rest =>
    if c ≠ '\\' then
      if standsForItself c then (unescape rest).map (c :: ·) else none
    else
      match rest with
      | [] => none
      | e :: rest =>
        match escapes.lookup e with
        | some c => (unescape rest).map (c :: ·)
        | none =>
          if e = 'u' then
            match rest with
            | a :: b :: c :: d :: rest =>
              (hexChar [a, b, c, d]).bind fun c => (unescape rest).map (c :: ·)
            | _ => none
          else if e = 'U' then
            match rest with
            | a :: b :: c :: d :: a' :: b' :: c' :: d' :: rest =>
              (hexChar [a, b, c, d, a', b', c', d']).bind fun c => (unescape rest).map (c :: ·)
            | _ => none
          else none

example : unescape "a\\t\\u00e9\\\\".toList = some "a\té\\".toList := by decide +kernel

@[simp] theorem unescape_nil : unescape [] = some [] := rfl

theorem unescape_plain {c : Char} (hc : standsForItself c = true) (hslash : c ≠ '\\') (rest : Str) :
    unescape (c :: rest) = (unescape rest).map (c :: ·) := by
  refine (unescape.eq_def _).trans ?_
  dsimp only
  rw [if_pos hslash, if_pos hc]

theorem unescape_escape {e c : Char} (he : escapes.lookup e = some c) (rest : Str) :
    unescape ('\\' :: e :: rest) = (unescape rest).map (c :: ·) := by
  refine (unescape.eq_def _).trans ?_
  dsimp only
  rw [if_neg (not_not.2 rfl), he]

/-- No escape sequence begins with other characters. -/
theorem unescape_unknown {e : Char} (he : escapes.lookup e = none) (hu : e ≠ 'u') (hU : e ≠ 'U')
    (rest : Str) : unescape ('\\' :: e :: rest) = none := by
  refine (unescape.eq_def _).trans ?_
  dsimp only
  rw [if_neg (not_not.2 rfl), he]
  dsimp only
  rw [if_neg hu, if_neg hU]

/-- There are no braces in the number of a character. -/
theorem unescape_brace (rest : Str) : unescape ('\\' :: 'u' :: '\x7b' :: rest) = none := by
  have hu : escapes.lookup 'u' = none := by decide
  refine (unescape.eq_def _).trans ?_
  dsimp only
  rw [if_neg (not_not.2 rfl), hu]
  dsimp only
  rw [if_pos rfl]
  match rest with
  | [] => rfl
  | [_] => rfl
  | [_, _] => rfl
  | b :: c :: d :: rest => rfl

/-! ## Sections -/

/-- A value on a line; for a string, what stands between its quotes. -/
inductive Scalar : Type where
  | string (raw : Str)
  | integer (n : Int)
  | boolean (b : Bool)

/-- How it is written. -/
def Scalar.text : Scalar → Str
  | .string raw => '"' :: raw ++ ['"']
  | .integer n => (toString n).toList
  | .boolean b => (toString b).toList

/-- The value a written scalar denotes, if it denotes one. -/
def Scalar.value : Scalar → Option Value
  | .string raw => (unescape raw).map Value.string
  | .integer n => if -(2 ^ 63) ≤ n ∧ n < 2 ^ 63 then some (.integer n) else none
  | .boolean b => some (.boolean b)

/-- A key with its value; without one the line is left out. -/
structure Line where
  key : String
  value : Option Scalar
  /-- what stands behind the value -/
  comment : String

/-- A line without a comment. -/
def line (key : String) (value : Option Scalar) : Line := ⟨key, value, ""⟩

/-- How it is written. -/
def Line.text (l : Line) : Str :=
  match l.value with
  | none => []
  | some v => l.key.toList ++ " = ".toList ++ v.text ++ l.comment.toList ++ "\n".toList

/-- Its value is one. -/
def Line.wellFormed (l : Line) : Bool :=
  match l.value with
  | none => true
  | some v => v.value.isSome

/-- What it adds to the table. -/
def Line.entry (l : Line) : Option (Str × Value) :=
  (l.value.bind Scalar.value).map fun v => (l.key.toList, v)

/-- A header and the lines below it. -/
structure Section where
  name : String
  /-- a header in double brackets -/
  repeated : Bool
  lines : List Line

/-- How it is written; an empty line comes after it. -/
def Section.text (s : Section) : Str :=
  (if s.repeated then "[[".toList ++ s.name.toList ++ "]]\n".toList
    else "[".toList ++ s.name.toList ++ "]\n".toList) ++
  s.lines.flatMap Line.text ++ "\n".toList

/-- Every key is there once, and every value is one. -/
def Section.wellFormed (s : Section) : Bool :=
  decide (s.lines.map Line.key).Nodup && s.lines.all Line.wellFormed

/-- The table below the header. -/
def Section.table (s : Section) : Table := s.lines.filterMap Line.entry

/-- Comments, then sections. -/
structure Document where
  comment : String
  sections : List Section

/-- How it is written. -/
def Document.text (d : Document) : Str := d.comment.toList ++ d.sections.flatMap Section.text

/-- The sections with a name. -/
def Document.named (d : Document) (name : String) : List Section :=
  d.sections.filter fun s => s.name = name

/-- Every section is well-formed, and a name in single brackets is not given again. -/
def Document.wellFormed (d : Document) : Bool :=
  d.sections.all fun s => s.wellFormed && (s.repeated || (d.named s.name).length = 1)

/-- The value under a name. -/
def Document.value (d : Document) (name : String) : Value :=
  let tables := (d.named name).map fun s => Value.table s.table
  if (d.named name).all Section.repeated then .array tables else tables.headD .other

/-- The table it denotes, if it is a document. -/
def Document.table (d : Document) : Option Table :=
  if d.wellFormed then
    some ((d.sections.map Section.name).dedup.map fun name => (name.toList, d.value name))
  else none

/-! ## What the keys denote -/

theorem lookup_filterMap_entry {lines : List Line} (hkeys : (lines.map Line.key).Nodup) (key : String) :
    (lines.filterMap Line.entry).lookup key.toList =
      (lines.find? fun l => l.key = key).bind fun l => l.value.bind Scalar.value := by
  induction lines with
  | nil => rfl
  | cons l lines ih =>
    obtain ⟨hfirst, hrest⟩ := List.nodup_cons.1 hkeys
    by_cases hkey : l.key = key
    · rw [List.find?_cons_of_pos (by simpa using hkey), Option.bind_some]
      have hlater : (lines.filterMap Line.entry).lookup key.toList = none := by
        rw [ih hrest, List.find?_eq_none.2 fun l' hl' => ?_]
        · rfl
        · exact fun hsame => hfirst (hkey ▸ of_decide_eq_true hsame ▸ List.mem_map_of_mem hl')
      cases hvalue : l.value.bind Scalar.value with
      | none => rw [List.filterMap_cons_none (by rw [Line.entry, hvalue, Option.map_none]), hlater]
      | some v =>
        rw [List.filterMap_cons_some (by rw [Line.entry, hvalue, Option.map_some]), hkey,
          List.lookup_cons_self]
    · rw [List.find?_cons_of_neg (by simpa using hkey)]
      have hne : (key.toList == l.key.toList) = false :=
        beq_eq_false_iff_ne.2 fun hsame => hkey (String.toList_inj.1 hsame).symm
      rw [← ih hrest]
      cases hvalue : l.value.bind Scalar.value with
      | none => rw [List.filterMap_cons_none (by rw [Line.entry, hvalue, Option.map_none])]
      | some v =>
        rw [List.filterMap_cons_some (by rw [Line.entry, hvalue, Option.map_some]), List.lookup_cons, hne]

/-- A key of a section has the value of its line. -/
theorem Section.get_table {s : Section} (h : s.wellFormed = true) (key : String) :
    s.table.get key = (s.lines.find? fun l => l.key = key).bind fun l => l.value.bind Scalar.value :=
  lookup_filterMap_entry (of_decide_eq_true (Bool.and_eq_true_iff.1 h).1) key

theorem lookup_map_names (names : List String) (value : String → Value) (key : String) :
    (names.map fun name => (name.toList, value name)).lookup key.toList =
      if key ∈ names then some (value key) else none := by
  induction names with
  | nil => rfl
  | cons name names ih =>
    rw [List.map_cons, List.lookup_cons]
    by_cases hkey : key = name
    · subst hkey
      rw [beq_self_eq_true, if_pos List.mem_cons_self]
    · rw [beq_eq_false_iff_ne.2 fun hsame => hkey (String.toList_inj.1 hsame), ih]
      simp only [List.mem_cons, hkey, false_or]

/-- A key of a document has the value of the sections with its name. -/
theorem Document.get_table {d : Document} {t : Table} (h : d.table = some t) (key : String) :
    t.get key = if d.named key = [] then none else some (d.value key) := by
  rw [Document.table] at h
  split at h
  · obtain rfl := Option.some.inj h
    rw [Table.get, lookup_map_names]
    have hnamed : key ∈ (d.sections.map Section.name).dedup ↔ d.named key ≠ [] := by
      rw [List.mem_dedup, List.mem_map, Document.named, ne_eq, List.filter_eq_nil_iff]
      simp
    by_cases hempty : d.named key = []
    · rw [if_pos hempty, if_neg fun hmem => hnamed.1 hmem hempty]
    · rw [if_neg hempty, if_pos (hnamed.2 hempty)]
  · cases h

section Keys

variable {d : Document} {t : Table} {α : Type}

/-- A key that has no section. -/
theorem Document.get_of_unnamed (h : d.table = some t) {key : String} (hnone : d.named key = []) :
    t.get key = none := by
  rw [Document.get_table h, if_pos hnone]

/-- A key with one section in single brackets. -/
theorem Document.get_of_single (h : d.table = some t) {key : String} {s : Section}
    (hone : d.named key = [s]) (hsingle : s.repeated = false) : t.get key = some (.table s.table) := by
  rw [Document.get_table h, hone, if_neg (List.cons_ne_nil _ _), Document.value, hone, List.all_cons,
    hsingle]
  rfl

/-- A key whose sections are in double brackets: a list, and an empty one if there are none. -/
theorem Document.defaulted_list (h : d.table = some t) {key : String}
    (hrepeated : (d.named key).all Section.repeated = true) (decode : Table → Option α) :
    defaulted t key (Value.asList (Value.asStruct decode)) [] =
      (d.named key).mapM fun s => decode s.table := by
  rw [defaulted, field, Document.get_table h]
  by_cases hnone : d.named key = []
  · rw [if_pos hnone, hnone]
    rfl
  · have hvalue : d.value key = .array ((d.named key).map fun s => .table s.table) := if_pos hrepeated
    rw [if_neg hnone, hvalue]
    exact List.mapM_map

end Keys

/-- A list is decoded when each of its elements is. -/
theorem mapM_eq_some_iff {α β : Type} {l : List α} {decode : α → Option β} {Fits : α → Prop} {read : α → β}
    (h : ∀ a ∈ l, ∀ b, decode a = some b ↔ Fits a ∧ b = read a) (bs : List β) :
    l.mapM decode = some bs ↔ (∀ a ∈ l, Fits a) ∧ bs = l.map read := by
  induction l generalizing bs with
  | nil =>
    refine ⟨fun hnil => ⟨fun _ ha => absurd ha List.not_mem_nil, (Option.some.inj hnil).symm⟩, ?_⟩
    rintro ⟨-, rfl⟩
    rfl
  | cons a l ih =>
    obtain ⟨hfirst, hrest⟩ := List.forall_mem_cons.1 h
    simp only [List.mapM_cons, Option.bind_eq_bind, Option.bind_eq_some_iff, hfirst, ih hrest,
      List.forall_mem_cons, List.map_cons]
    constructor
    · rintro ⟨b, ⟨hfits, rfl⟩, bs', ⟨hall, rfl⟩, hbs⟩
      exact ⟨⟨hfits, hall⟩, (Option.some.inj hbs).symm⟩
    · rintro ⟨⟨hfits, hall⟩, rfl⟩
      exact ⟨_, ⟨hfits, rfl⟩, _, ⟨hall, rfl⟩, rfl⟩

end TurbineProxy.Toml
