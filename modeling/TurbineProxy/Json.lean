import Mathlib.Data.List.Basic
import Mathlib.Tactic.Cases

/-!
# JSON texts

A library layer, independent of the proxy: the grammar of JSON. A document is a tree whose strings are kept as they are
written, next to what they spell (`Quoted`). A text of it is its tokens, with white space between them (`IsText`). The
token of a member's name carries the member and its object, so that the members of a document can be told in the order
in which a text has them.
-/

namespace TurbineProxy.Json

/-! ## Strings -/

/-- A character that stands for itself in a string. -/
def IsPlain (c : Char) : Prop := 0x20 ≤ c.toNat ∧ c ≠ '"' ∧ c ≠ '\\'

instance : DecidablePred IsPlain := fun _ => inferInstanceAs (Decidable (_ ∧ _))

/-- What a backslash and a character stand for. -/
def escaped : Char → Option Char
  | '"' => some '"'
  | '\\' => some '\\'
  | '/' => some '/'
  | 'b' => some (Char.ofNat 0x08)
  | 'f' => some (Char.ofNat 0x0C)
  | 'n' => some '\n'
  | 'r' => some '\r'
  | 't' => some '\t'
  | _ => none

/-- A hexadecimal digit. -/
def hexDigit (c : Char) : Option Nat :=
  if '0' ≤ c ∧ c ≤ '9' then some (c.toNat - 48)
  else if 'a' ≤ c ∧ c ≤ 'f' then some (c.toNat - 87)
  else if 'A' ≤ c ∧ c ≤ 'F' then some (c.toNat - 55)
  else none

/-- The code unit that four hexadecimal digits stand for. -/
def codeUnit : List Char → Option Nat
  | [a, b, c, d] => do
    let a ← hexDigit a
    let b ← hexDigit b
    let c ← hexDigit c
    let d ← hexDigit d
    return ((a * 16 + b) * 16 + c) * 16 + d
  | _ => none

/-- One character, as it may be written in a string. -/
inductive SpellsChar : List Char → Char → Prop where
  | plain {c : Char} : IsPlain c → SpellsChar [c] c
  | short {e c : Char} : escaped e = some c → SpellsChar ['\\', e] c
  | code {ds : List Char} {n : Nat} : codeUnit ds = some n → n < 0xD800 ∨ 0xE000 ≤ n →
      SpellsChar ('\\' :: 'u' :: ds) (Char.ofNat n)
  | pair {ds es : List Char} {hi lo : Nat} : codeUnit ds = some hi → codeUnit es = some lo →
      0xD800 ≤ hi → hi < 0xDC00 → 0xDC00 ≤ lo → lo < 0xE000 →
      SpellsChar ('\\' :: 'u' :: ds ++ '\\' :: 'u' :: es)
        (Char.ofNat (0x10000 + (hi - 0xD800) * 0x400 + (lo - 0xDC00)))

/-- What stands between the quotes of a string, and the string. -/
inductive Spells : List Char → List Char → Prop where
  | nil : Spells [] []
  | cons {u raw value : List Char} {c : Char} : SpellsChar u c → Spells raw value → Spells (u ++ raw) (c :: value)

/-- A string as it is written. -/
structure Quoted where
  raw : List Char
  value : List Char
  spells : Spells raw value

section Strings

variable {u raw value a b : List Char} {c : Char}

theorem hexDigit_of_mem {ds : List Char} {n : Nat} (h : codeUnit ds = some n) : ∀ d ∈ ds, (hexDigit d).isSome := by
  match ds, h with
  | [a, b, c, d], h =>
    simp only [codeUnit, Option.pure_def, Option.bind_eq_bind, Option.bind_eq_some_iff] at h
    obtain ⟨_, ha, _, hb, _, hc, _, hd, -⟩ := h
    simp [ha, hb, hc, hd]

/-- A character that is no hexadecimal digit stands in an escape of code units at no place but the first two. -/
theorem not_mem_codes {ds : List Char} {n : Nat} (h : codeUnit ds = some n) (hc : hexDigit c = none) (hu : c ≠ 'u')
    (hslash : c ≠ '\\') : c ∉ '\\' :: 'u' :: ds := by
  simp only [List.mem_cons, not_or]
  refine ⟨hslash, hu, fun hmem => ?_⟩
  have := hexDigit_of_mem h c hmem
  rw [hc] at this
  cases this

/-- A quote in a string is written with a backslash. -/
theorem SpellsChar.eq_of_quote (h : SpellsChar u c) (hmem : '"' ∈ u) : u = ['\\', '"'] := by
  cases h with
  | plain hplain => exact absurd (List.mem_singleton.mp hmem).symm hplain.2.1
  | short hescaped =>
    rcases List.mem_cons.mp hmem with h | h
    · exact absurd h (by decide)
    · rw [List.mem_singleton.mp h]
  | code hn _ => exact absurd hmem (not_mem_codes hn (by decide) (by decide) (by decide))
  | pair hhi hlo =>
    rcases List.mem_append.mp hmem with h | h
    · exact absurd h (not_mem_codes hhi (by decide) (by decide) (by decide))
    · exact absurd h (not_mem_codes hlo (by decide) (by decide) (by decide))

/-- A comma in a string is written as it is. -/
theorem SpellsChar.eq_of_comma (h : SpellsChar u c) (hmem : ',' ∈ u) : u = [','] ∧ c = ',' := by
  cases h with
  | plain hplain =>
    obtain rfl := List.mem_singleton.mp hmem
    exact ⟨rfl, rfl⟩
  | short hescaped =>
    rcases List.mem_cons.mp hmem with h | h
    · exact absurd h (by decide)
    · rw [← List.mem_singleton.mp h] at hescaped
      cases hescaped
  | code hn _ => exact absurd hmem (not_mem_codes hn (by decide) (by decide) (by decide))
  | pair hhi hlo =>
    rcases List.mem_append.mp hmem with h | h
    · exact absurd h (not_mem_codes hhi (by decide) (by decide) (by decide))
    · exact absurd h (not_mem_codes hlo (by decide) (by decide) (by decide))

/-- What is written as one character stands for itself. -/
theorem SpellsChar.length (h : SpellsChar u c) : u = [c] ∧ IsPlain c ∨ 1 < u.length ∧ u.head? = some '\\' := by
  cases h with
  | plain hplain => exact .inl ⟨rfl, hplain⟩
  | short => exact .inr ⟨by simp, rfl⟩
  | code => exact .inr ⟨by simp, rfl⟩
  | pair => exact .inr ⟨by simp, rfl⟩

/-- A backslash and a letter other than `u` are an escape. -/
theorem SpellsChar.eq_short {e : Char} {rest rest' : List Char} (h : SpellsChar u c) (he : e ≠ 'u')
    (heq : u ++ rest = '\\' :: e :: rest') : u = ['\\', e] ∧ escaped e = some c := by
  cases h with
  | plain hplain => exact absurd (List.cons_eq_cons.mp heq).1 hplain.2.2
  | short hescaped =>
    obtain ⟨rfl, -⟩ := List.cons_eq_cons.mp (List.cons_eq_cons.mp heq).2
    exact ⟨rfl, hescaped⟩
  | code => exact absurd (List.cons_eq_cons.mp (List.cons_eq_cons.mp heq).2).1.symm he
  | pair => exact absurd (List.cons_eq_cons.mp (List.cons_eq_cons.mp heq).2).1.symm he

/-- A character that is no backslash stands for itself. -/
theorem SpellsChar.eq_plain {d : Char} {rest rest' : List Char} (h : SpellsChar u c) (hd : d ≠ '\\')
    (heq : u ++ rest = d :: rest') : u = [d] ∧ c = d ∧ IsPlain d := by
  cases h with
  | plain hplain =>
    obtain ⟨rfl, -⟩ := List.cons_eq_cons.mp heq
    exact ⟨rfl, rfl, hplain⟩
  | short => exact absurd (List.cons_eq_cons.mp heq).1.symm hd
  | code => exact absurd (List.cons_eq_cons.mp heq).1.symm hd
  | pair => exact absurd (List.cons_eq_cons.mp heq).1.symm hd

theorem SpellsChar.ne_nil (h : SpellsChar u c) : u ≠ [] := by
  rintro rfl
  rcases h.length with ⟨h, -⟩ | ⟨h, -⟩
  · cases h
  · exact absurd h (by simp)

theorem Spells.eq_nil (h : Spells [] value) : value = [] := by
  generalize hraw : [] = raw at h
  cases h with
  | nil => rfl
  | cons hchar => exact absurd (List.append_eq_nil_iff.mp hraw.symm).1 hchar.ne_nil

/-- Text that stands for itself. -/
theorem spells_of_plain (h : ∀ c ∈ value, IsPlain c) : Spells value value := by
  induction value with
  | nil => exact .nil
  | cons c value ih => exact .cons (.plain (h c (.head value))) (ih fun d hd => h d (.tail c hd))

/-- A quote in a string comes after a backslash. -/
theorem Spells.backslash (h : Spells (a ++ '"' :: b) value) : ∃ a', a = a' ++ ['\\'] := by
  generalize hraw : a ++ '"' :: b = raw at h
  induction h generalizing a with
  | nil => simp at hraw
  | @cons u raw value c hchar _ ih =>
    rcases List.append_eq_append_iff.mp hraw with ⟨u', rfl, hquote⟩ | ⟨a', rfl, hrest⟩
    · cases u' with
      | nil =>
        obtain ⟨a', ha'⟩ := ih (a := []) hquote
        simp at ha'
      | cons d u' =>
        obtain ⟨rfl, -⟩ := List.cons_eq_cons.mp hquote
        have hslash := hchar.eq_of_quote (List.mem_append_right _ (.head u'))
        match a, hslash with
        | ['\\'], _ => exact ⟨[], rfl⟩
        | [], hslash => exact absurd hslash (by simp)
        | _ :: _ :: _, hslash => simp at hslash
    · obtain ⟨a'', rfl⟩ := ih hrest.symm
      exact ⟨u ++ a'', (List.append_assoc ..).symm⟩

/-- What comes before a string's closing quote is its first character, or nothing. -/
theorem Spells.cases_text {x y : List Char} (h : Spells raw value) (heq : raw ++ '"' :: x = y) :
    raw = [] ∧ value = [] ∧ y = '"' :: x ∨
      ∃ u c raw' value', raw = u ++ raw' ∧ value = c :: value' ∧ SpellsChar u c ∧ Spells raw' value' ∧
        u ++ (raw' ++ '"' :: x) = y := by
  cases h with
  | nil => exact .inl ⟨rfl, rfl, heq.symm⟩
  | cons hchar hrest => exact .inr ⟨_, _, _, _, rfl, rfl, hchar, hrest, by rw [← heq, List.append_assoc]⟩

/-- A string that is written with a comma at its end has it there. -/
theorem Spells.comma (h : Spells (a ++ [',']) value) : ∃ v, value = v ++ [','] := by
  generalize hraw : a ++ [','] = raw at h
  induction h generalizing a with
  | nil => simp at hraw
  | @cons u raw value c hchar hspells ih =>
    rcases List.append_eq_append_iff.mp hraw with ⟨u', rfl, hcomma⟩ | ⟨a', rfl, hrest⟩
    · cases u' with
      | nil =>
        obtain ⟨v, rfl⟩ := ih (a := []) hcomma
        exact ⟨c :: v, rfl⟩
      | cons d u' =>
        obtain ⟨rfl, hnil⟩ := List.cons_eq_cons.mp hcomma
        obtain ⟨rfl, rfl⟩ := List.append_eq_nil_iff.mp hnil.symm
        obtain ⟨-, rfl⟩ := hchar.eq_of_comma (List.mem_append_right _ (.head []))
        rw [hspells.eq_nil]
        exact ⟨[], rfl⟩
    · obtain ⟨v, rfl⟩ := ih hrest.symm
      exact ⟨c :: v, rfl⟩

/-- A string is not longer than what is written for it; if it is as long, it is written as it is. -/
theorem Spells.length_le (h : Spells raw value) :
    value.length ≤ raw.length ∧ (raw.length ≤ value.length → raw = value ∧ ∀ c ∈ value, IsPlain c) := by
  induction h with
  | nil => exact ⟨Nat.le_refl _, fun _ => ⟨rfl, List.forall_mem_nil _⟩⟩
  | cons hchar _ ih =>
    obtain ⟨hle, heq⟩ := ih
    rw [List.length_append, List.length_cons]
    rcases hchar.length with ⟨rfl, hplain⟩ | ⟨hlong, -⟩
    · rw [List.length_singleton]
      refine ⟨by omega, fun h => ?_⟩
      obtain ⟨rfl, hall⟩ := heq (by omega)
      exact ⟨rfl, List.forall_mem_cons.mpr ⟨hplain, hall⟩⟩
    · exact ⟨by omega, fun h => by omega⟩

/-- What is written without a backslash is the string. -/
theorem Spells.eq_of_no_backslash (h : Spells raw value) (hraw : '\\' ∉ raw) : raw = value := by
  induction h with
  | nil => rfl
  | cons hchar _ ih =>
    rcases hchar.length with ⟨rfl, -⟩ | ⟨-, hslash⟩
    · rw [ih fun h => hraw (List.mem_append_right _ h)]
      rfl
    · exact absurd (List.mem_append_left _ (List.mem_of_head? hslash)) hraw

/-- What is written without a backslash has no quote. -/
theorem Spells.no_quote (h : Spells raw value) (hraw : '\\' ∉ raw) : '"' ∉ raw := by
  intro hmem
  obtain ⟨a, b, rfl⟩ := List.append_of_mem hmem
  obtain ⟨a', rfl⟩ := h.backslash
  simp at hraw

/-- Two strings that are written before a quote, the second without a backslash. -/
theorem Spells.eq_of_append (h : Spells raw value) {s x y : List Char} (hslash : '\\' ∉ s) (hquote : '"' ∉ s)
    (heq : raw ++ '"' :: x = s ++ '"' :: y) : raw = s ∧ x = y := by
  rcases List.append_eq_append_iff.mp heq with ⟨s', rfl, hrest⟩ | ⟨raw', rfl, hrest⟩
  · cases s' with
    | nil => exact ⟨(List.append_nil raw).symm, List.tail_eq_of_cons_eq hrest⟩
    | cons d s' =>
      obtain ⟨rfl, -⟩ := List.cons_eq_cons.mp hrest
      exact absurd (List.mem_append_right raw (.head s')) hquote
  · cases raw' with
    | nil => exact ⟨List.append_nil s, (List.tail_eq_of_cons_eq hrest).symm⟩
    | cons d raw' =>
      obtain ⟨rfl, -⟩ := List.cons_eq_cons.mp hrest
      obtain ⟨s', rfl⟩ := h.backslash
      exact absurd (List.mem_append_right s' (List.mem_singleton_self _)) hslash

end Strings

/-! ## Documents -/

/-- The text of a number. -/
def IsNumber (text : List Char) : Prop :=
  ∃ sign whole fraction exponent, text = sign ++ whole ++ fraction ++ exponent ∧
    (sign = [] ∨ sign = ['-']) ∧
    (whole = ['0'] ∨ ∃ d ds, whole = d :: ds ∧ d ≠ '0' ∧ ∀ c ∈ whole, c.isDigit = true) ∧
    (fraction = [] ∨ ∃ ds, fraction = '.' :: ds ∧ ds ≠ [] ∧ ∀ c ∈ ds, c.isDigit = true) ∧
    (exponent = [] ∨ ∃ e s ds, exponent = e :: s ++ ds ∧ (e = 'e' ∨ e = 'E') ∧ (s = [] ∨ s = ['+'] ∨ s = ['-']) ∧
      ds ≠ [] ∧ ∀ c ∈ ds, c.isDigit = true)

/-- A value without structure that is no string. -/
inductive Literal where
  | null | true | false
  | number (text : List Char) (h : IsNumber text)

/-- How it is written. -/
def Literal.text : Literal → List Char
  | null => "null".toList
  | true => "true".toList
  | false => "false".toList
  | number text _ => text

/-- What a node of a tree is: a value, or a list of items or of members. -/
inductive Kind where
  | value | items | members

/-- The trees of documents. -/
inductive Node : Kind → Type where
  | string (s : Quoted) : Node .value
  | literal (l : Literal) : Node .value
  | array (items : Node .items) : Node .value
  | object (members : Node .members) : Node .value
  | noItem : Node .items
  | item (v : Node .value) (rest : Node .items) : Node .items
  | noMember : Node .members
  | member (name : Quoted) (v : Node .value) (rest : Node .members) : Node .members

/-- A value. -/
abbrev Value : Type := Node .value

/-- The members of an object. -/
abbrev Members : Type := Node .members

/-- The value, if it is a string. -/
def Node.string? : Value → Option (List Char)
  | .string s => some s.value
  | _ => none

/-- The value, if it is a natural number below the bound, written with digits only. -/
def Node.natural? (bound : Nat) : Value → Option Nat
  | .literal (.number text _) =>
    if text.all Char.isDigit ∧ Nat.ofDigitChars 10 text 0 < bound then some (Nat.ofDigitChars 10 text 0) else none
  | _ => none

/-- The strings among the items. -/
def Node.strings : {k : Kind} → Node k → List (List Char)
  | _, .item v rest => v.string?.toList ++ rest.strings
  | _, _ => []

/-- The strings among the elements of an array. -/
def Node.array? : Value → Option (List (List Char))
  | .array items => some items.strings
  | _ => none

/-- The items are all strings of a kind. -/
def Node.allStrings (p : Quoted → Bool) : {k : Kind} → Node k → Bool
  | _, .item (.string s) rest => p s && rest.allStrings p
  | _, .item _ _ => false
  | _, _ => true

theorem Node.allStrings_item {p : Quoted → Bool} {v : Value} {rest : Node .items}
    (h : (Node.item v rest).allStrings p = true) :
    ∃ s, v = .string s ∧ p s = true ∧ rest.allStrings p = true := by
  cases v with
  | string s =>
    obtain ⟨hs, hrest⟩ := (Bool.and_eq_true _ _).mp h
    exact ⟨s, rfl, hs, hrest⟩
  | literal | array | object => cases h

/-- The values of the members with a name. -/
def Node.all (name : List Char) : {k : Kind} → Node k → List Value
  | _, .member n v rest => if n.value = name then v :: rest.all name else rest.all name
  | _, _ => []

/-- A member, with its object. -/
structure Member where
  object : Members
  name : Quoted
  value : Value

/-! ## Tokens -/

/-- The structural characters. -/
inductive Mark where
  | openBrace | closeBrace | openBracket | closeBracket | colon | comma
  deriving DecidableEq

/-- How it is written. -/
def Mark.char : Mark → Char
  | openBrace => '{'
  | closeBrace => '}'
  | openBracket => '['
  | closeBracket => ']'
  | colon => ':'
  | comma => ','

/-- White space. -/
inductive Blank where
  | space | tab | newline | carriageReturn

/-- How it is written. -/
def Blank.char : Blank → Char
  | space => ' '
  | tab => '\t'
  | newline => '\n'
  | carriageReturn => '\r'

/-- A token. -/
inductive Token where
  | mark (m : Mark)
  | literal (l : Literal)
  /-- a string that is a value -/
  | string (s : Quoted)
  /-- the name of a member -/
  | name (m : Member)
  | blank (b : Blank)

/-- How a string is written. -/
def Quoted.text (s : Quoted) : List Char := '"' :: (s.raw ++ ['"'])

/-- How a token is written. -/
def Token.text : Token → List Char
  | mark m => [m.char]
  | literal l => l.text
  | string s => s.text
  | name m => m.name.text
  | blank b => [b.char]

/-- How tokens are written. -/
def text (ts : List Token) : List Char := ts.flatMap Token.text

/-- The comma before what follows an item or a member. -/
def Node.separator : {k : Kind} → Node k → List Token
  | _, .item .. => [.mark .comma]
  | _, .member .. => [.mark .comma]
  | _, _ => []

/-- The tokens of a tree that stands in the object with the given members. -/
def Node.tokens : {k : Kind} → Node k → Members → List Token
  | _, .string s, _ => [.string s]
  | _, .literal l, _ => [.literal l]
  | _, .array items, obj => .mark .openBracket :: (items.tokens obj ++ [.mark .closeBracket])
  | _, .object members, _ => .mark .openBrace :: (members.tokens members ++ [.mark .closeBrace])
  | _, .noItem, _ => []
  | _, .item v rest, obj => v.tokens obj ++ (rest.separator ++ rest.tokens obj)
  | _, .noMember, _ => []
  | _, .member n v rest, obj =>
    .name ⟨obj, n, v⟩ :: .mark .colon :: (v.tokens obj ++ (rest.separator ++ rest.tokens obj))

/-- The tokens of a document. -/
def Node.document (v : Value) : List Token := v.tokens .noMember

/-- A token that is no white space. -/
def Token.counts : Token → Bool
  | blank _ => false
  | _ => true

/-- The tokens without the white space. -/
def strip (ts : List Token) : List Token := ts.filter Token.counts

/-- A text of a document: its tokens, with white space anywhere between them. -/
def IsText (v : Value) (t : List Char) : Prop := ∃ ts, strip ts = v.document ∧ text ts = t

section Tokens

variable {ts : List Token} {t : List Char}

@[simp] theorem text_nil : text [] = [] := rfl

@[simp] theorem text_cons (tok : Token) : text (tok :: ts) = tok.text ++ text ts := rfl

theorem text_append (ts ts' : List Token) : text (ts ++ ts') = text ts ++ text ts' := List.flatMap_append

theorem text_string (s : Quoted) : text (.string s :: ts) = '"' :: (s.raw ++ '"' :: text ts) := by
  simp [Token.text, Quoted.text]

theorem text_name (m : Member) : text (.name m :: ts) = '"' :: (m.name.raw ++ '"' :: text ts) := by
  simp [Token.text, Quoted.text]

/-- A number begins with a digit or a minus sign, so that no number is taken for anything else. -/
theorem IsNumber.head {text : List Char} (h : IsNumber text) :
    ∃ c rest, text = c :: rest ∧ (c = '-' ∨ c.isDigit = Bool.true) := by
  obtain ⟨sign, whole, fraction, exponent, rfl, hsign, hwhole, -, -⟩ := h
  have hdigit : ∃ c rest, whole = c :: rest ∧ c.isDigit = Bool.true := by
    rcases hwhole with rfl | ⟨d, ds, rfl, -, hall⟩
    · exact ⟨'0', [], rfl, by decide⟩
    · exact ⟨d, ds, rfl, hall d (.head ds)⟩
  obtain ⟨c, rest, rfl, hc⟩ := hdigit
  rcases hsign with rfl | rfl
  · exact ⟨c, rest ++ fraction ++ exponent, rfl, .inr hc⟩
  · exact ⟨'-', c :: rest ++ fraction ++ exponent, rfl, .inl rfl⟩

/-- The characters a literal begins with. -/
def beginsLiteral (c : Char) : Bool := c == 'n' || c == 't' || c == 'f' || c == '-' || c.isDigit

theorem Literal.head (l : Literal) : ∃ c rest, l.text = c :: rest ∧ beginsLiteral c = Bool.true := by
  cases l with
  | null => exact ⟨'n', _, rfl, by decide⟩
  | true => exact ⟨'t', _, rfl, by decide⟩
  | false => exact ⟨'f', _, rfl, by decide⟩
  | number text h =>
    obtain ⟨c, rest, rfl, hc⟩ := h.head
    refine ⟨c, rest, rfl, ?_⟩
    rcases hc with rfl | hc
    · decide
    · rw [beginsLiteral, hc, Bool.or_true]

theorem Mark.not_beginsLiteral (m : Mark) : beginsLiteral m.char = Bool.false := by cases m <;> decide

/-- Tokens that are written with a mark in front begin with it. -/
theorem text_eq_mark {m : Mark} (h : text ts = m.char :: t) : ∃ ts', ts = .mark m :: ts' ∧ text ts' = t := by
  cases ts with
  | nil => cases h
  | cons tok ts =>
    cases tok with
    | mark m' =>
      obtain ⟨hchar, hrest⟩ := List.cons_eq_cons.mp h
      have : m' = m := by
        cases m <;> cases m' <;> first | rfl | exact absurd hchar (by decide)
      exact ⟨ts, by rw [this], hrest⟩
    | literal l =>
      obtain ⟨c, rest, hl, hc⟩ := l.head
      rw [text_cons, Token.text, hl] at h
      obtain ⟨rfl, -⟩ := List.cons_eq_cons.mp h
      rw [m.not_beginsLiteral] at hc
      cases hc
    | string s =>
      rw [text_string] at h
      exact absurd (List.cons_eq_cons.mp h).1 (by cases m <;> decide)
    | name n =>
      rw [text_name] at h
      exact absurd (List.cons_eq_cons.mp h).1 (by cases m <;> decide)
    | blank b => exact absurd (List.cons_eq_cons.mp h).1 (by cases m <;> cases b <;> decide)

/-- Tokens that are written with a quote in front begin with a string. -/
theorem text_eq_quote (h : text ts = '"' :: t) :
    ∃ s ts', (ts = .string s :: ts' ∨ ∃ m : Member, ts = .name m :: ts' ∧ m.name = s) ∧
      t = s.raw ++ '"' :: text ts' := by
  cases ts with
  | nil => cases h
  | cons tok ts =>
    cases tok with
    | mark m => exact absurd (List.cons_eq_cons.mp h).1 (by cases m <;> decide)
    | literal l =>
      obtain ⟨c, rest, hl, hc⟩ := l.head
      rw [text_cons, Token.text, hl] at h
      obtain ⟨rfl, -⟩ := List.cons_eq_cons.mp h
      exact absurd hc (by decide)
    | string s =>
      rw [text_string] at h
      exact ⟨s, ts, .inl rfl, (List.cons_eq_cons.mp h).2.symm⟩
    | name m =>
      rw [text_name] at h
      exact ⟨m.name, ts, .inr ⟨m, rfl, rfl⟩, (List.cons_eq_cons.mp h).2.symm⟩
    | blank b => exact absurd (List.cons_eq_cons.mp h).1 (by cases b <;> decide)

/-- The first member of an object that is written without white space, if its value is a string. -/
theorem first_member {ms obj : Members} {rest : List Token} {name body : List Char}
    (hstrip : strip ts = ms.tokens obj ++ .mark .closeBrace :: rest) (hslash : '\\' ∉ name) (hquote : '"' ∉ name)
    (htext : text ts = '"' :: (name ++ '"' :: ':' :: '"' :: body)) :
    ∃ n s ms' ts', ms = .member n (.string s) ms' ∧ n.value = name ∧ s.raw ++ '"' :: text ts' = body ∧
      strip ts' = ms'.separator ++ (ms'.tokens obj ++ .mark .closeBrace :: rest) := by
  obtain ⟨q, ts, hq, hbody⟩ := text_eq_quote htext
  cases ms with
  | noMember =>
    rcases hq with rfl | ⟨m, rfl, -⟩
    · cases hstrip
    · cases hstrip
  | member n v ms =>
    rcases hq with rfl | ⟨m, rfl, rfl⟩
    · cases hstrip
    · obtain ⟨hm, hcolon⟩ := List.cons_eq_cons.mp hstrip
      obtain rfl := Token.name.inj hm
      obtain ⟨hname, hbehind⟩ := n.spells.eq_of_append hslash hquote hbody.symm
      obtain ⟨ts₁, rfl, hvalue⟩ := text_eq_mark (m := .colon) hbehind
      have htokens : strip ts₁ = v.tokens obj ++ (ms.separator ++ ms.tokens obj) ++ .mark .closeBrace :: rest :=
        (List.cons_eq_cons.mp hcolon).2
      obtain ⟨s, ts₂, hs, hrest⟩ := text_eq_quote hvalue
      cases v with
      | string s' =>
        rcases hs with rfl | ⟨m, rfl, -⟩
        · obtain ⟨htoken, hstrip₂⟩ := List.cons_eq_cons.mp htokens
          obtain rfl := Token.string.inj htoken
          refine ⟨n, s, ms, ts₂, rfl, ?_, hrest.symm, hstrip₂.trans (List.append_assoc ms.separator _ _)⟩
          rw [← hname]
          exact (n.spells.eq_of_no_backslash (hname ▸ hslash)).symm
        · cases htokens
      | literal l => rcases hs with rfl | ⟨m, rfl, -⟩ <;> cases htokens
      | array items => rcases hs with rfl | ⟨m, rfl, -⟩ <;> cases htokens
      | object members => rcases hs with rfl | ⟨m, rfl, -⟩ <;> cases htokens

/-- What comes behind a comma in an object. -/
theorem next_member {ms obj : Members} {rest : List Token}
    (hstrip : strip ts = ms.separator ++ (ms.tokens obj ++ .mark .closeBrace :: rest)) (htext : text ts = ',' :: t) :
    ∃ ts', text ts' = t ∧ strip ts' = ms.tokens obj ++ .mark .closeBrace :: rest := by
  obtain ⟨ts', rfl, hrest⟩ := text_eq_mark (m := .comma) htext
  cases ms with
  | noMember => cases hstrip
  | member n v ms => exact ⟨ts', hrest, (List.cons_eq_cons.mp hstrip).2⟩

end Tokens

/-- The tokens of a tree are no white space. -/
theorem Node.counts_of_mem {k : Kind} (n : Node k) (obj : Members) : ∀ tok ∈ n.tokens obj, tok.counts = Bool.true := by
  have hseparator : ∀ {k : Kind} (n : Node k), ∀ tok ∈ n.separator, tok.counts = Bool.true := by
    intro k n tok h
    cases n with
    | item | member =>
      rw [List.mem_singleton.mp h]
      rfl
    | _ => cases h
  induction n generalizing obj with
  | string s => exact List.forall_mem_singleton.mpr rfl
  | literal l => exact List.forall_mem_singleton.mpr rfl
  | array items ih =>
    exact List.forall_mem_cons.mpr ⟨rfl, List.forall_mem_append.mpr ⟨ih obj, List.forall_mem_singleton.mpr rfl⟩⟩
  | object members ih =>
    exact List.forall_mem_cons.mpr ⟨rfl, List.forall_mem_append.mpr ⟨ih members, List.forall_mem_singleton.mpr rfl⟩⟩
  | noItem => exact List.forall_mem_nil _
  | item v rest ihv ih =>
    exact List.forall_mem_append.mpr ⟨ihv obj, List.forall_mem_append.mpr ⟨hseparator rest, ih obj⟩⟩
  | noMember => exact List.forall_mem_nil _
  | member name v rest ihv ih =>
    exact List.forall_mem_cons.mpr ⟨rfl, List.forall_mem_cons.mpr ⟨rfl, List.forall_mem_append.mpr
      ⟨ihv obj, List.forall_mem_append.mpr ⟨hseparator rest, ih obj⟩⟩⟩⟩

theorem Node.strip_tokens {k : Kind} (n : Node k) (obj : Members) : strip (n.tokens obj) = n.tokens obj :=
  List.filter_eq_self.mpr (n.counts_of_mem obj)

/-- A document without white space, and white space behind it. -/
theorem isText_append (v : Value) (blanks : List Blank) : IsText v (text v.document ++ blanks.map Blank.char) := by
  refine ⟨v.document ++ blanks.map .blank, ?_, ?_⟩
  · have hblanks : strip (blanks.map .blank) = [] :=
      List.filter_eq_nil_iff.mpr (List.forall_mem_map.mpr fun _ _ => Bool.false_ne_true)
    rw [strip, List.filter_append, ← strip, ← strip, hblanks, List.append_nil]
    exact v.strip_tokens .noMember
  · rw [text_append]
    congr 1
    induction blanks with
    | nil => rfl
    | cons b blanks ih => exact congrArg (b.char :: ·) ih

/-- A string that is written as it is. -/
def Quoted.ofPlain (s : List Char) (h : ∀ c ∈ s, IsPlain c) : Quoted := ⟨s, s, spells_of_plain h⟩

/-- A literal string that is written as it is. -/
def Quoted.ofString (s : String) (h : (s.toList.all fun c => decide (IsPlain c)) = Bool.true) : Quoted :=
  .ofPlain s.toList fun c hc => of_decide_eq_true (List.all_eq_true.mp h c hc)

end TurbineProxy.Json
