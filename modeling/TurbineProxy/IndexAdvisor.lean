import TurbineProxy.JsonSearch
import TurbineProxy.TextFields
import TurbineProxy.TextSearch

/-!
# The index advisor's reading of EXPLAIN

`parse_explain_json` finds the tables of a plan by their names and reads everything about a table from the first place
behind its name where the member's name stands in quotes, whichever object that belongs to. So it gives the tables of a
plan their own values if, and only if, those first places have them (`parseExplainJson_iff`); this is for plans that can
be read by searching at all (`Legible`).
-/

namespace TurbineProxy

open Json Str

/-! ## The code -/

/-- `AccessType` -/
inductive AccessType where
  | all | index | range | ref | eqRef | const | other
  deriving DecidableEq

/-- `AccessType::from_str` -/
def AccessType.fromStr (s : Str) : AccessType :=
  let lower := toLowercase s
  if lower = "all".toList then all
  else if lower = "index".toList then index
  else if lower = "range".toList then range
  else if lower = "ref".toList then ref
  else if lower = "eq_ref".toList then eqRef
  else if lower = "const".toList ∨ lower = "system".toList then const
  else other

/-- `ExplainSignals` -/
structure ExplainSignals where
  table : Str
  accessType : AccessType
  rowsExamined : Nat
  filteredPct : Float32
  hasFilesort : Bool
  hasTempTable : Bool
  usedIndex : Option Str
  possibleIndexes : List Str
  whereColumns : List Str

/-- What follows the first `"key"`, a colon and white space, where the `extract_` functions read. -/
def behindKey (json key : Str) : Option Str :=
  (splitFirst (needle key) json).bind fun p =>
    match trimStart p.2 with
    | ':' :: after => some (trimStart after)
    | _ => none

/-- A string from its opening quote to the next quote. -/
def quotedValue : Str → Option Str
  | '"' :: inner => (splitFirst ['"'] inner).bind fun p =>
    if p.1 = "null".toList ∨ p.1 = [] then none else some p.1
  | _ => none

/-- `extract_str_value` -/
def extractStrValue (json key : Str) : Option Str := (behindKey json key).bind quotedValue

/-- `u64::from_str` of the digits in front of something else. -/
def digitsValue (after : Str) : Option Nat :=
  if after.all Char.isDigit then none else Str.parseUnsigned (2 ^ 64) (after.takeWhile Char.isDigit)

/-- `extract_u64_value` -/
def extractU64Value (json key : Str) : Option Nat := (behindKey json key).bind digitsValue

/-- `extract_f32_value`. `parseF32` is `f32::from_str`. -/
def extractF32Value (parseF32 : Str → Option Float32) (json key : Str) : Option Float32 :=
  (behindKey json key).bind fun after =>
    let after := trimMatches '"' after
    let isPart := fun c : Char => c.isDigit || c == '.' || c == '-'
    if after.all isPart then none else parseF32 (after.takeWhile isPart)

/-- `extract_bool_value` -/
def extractBoolValue (json key : Str) : Bool := (behindKey json key).elim false (startsWith · "true")

/-- An element of an array, from the text between commas. -/
def elementOf (s : Str) : Option Str :=
  let trimmed := trimMatches '"' (trim s)
  if trimmed = [] ∨ trimmed = "null".toList then none else some trimmed

/-- The elements of an array, from its opening bracket to the next closing one. -/
def arrayValue : Str → List Str
  | '[' :: inner => (splitFirst [']'] inner).elim [] fun p => (p.1.splitOnP (· == ',')).filterMap elementOf
  | _ => []

/-- `extract_array_strings` -/
def extractArrayStrings (json key : Str) : List Str := (behindKey json key).elim [] arrayValue

/-- The loop of `extract_where_columns`, for at most so many dots. -/
def columnsLoop : Nat → List Str → Str → List Str
  | 0, cols, _ => cols
  | n + 1, cols, s =>
    match splitFirst "`.`".toList s with
    | none => cols
    | some (_, afterDot) =>
      let col := afterDot.takeWhile (· ≠ '`')
      let isMidChain := startsWith (afterDot.dropWhile (· ≠ '`')) "`.`"
      columnsLoop n (if !isMidChain && !col.isEmpty && !cols.contains col then cols ++ [col] else cols) afterDot

/-- The columns that a condition names. -/
def columnsOf (condition : Str) : List Str := columnsLoop condition.length [] condition

/-- `extract_where_columns` -/
def extractWhereColumns (json : Str) : List Str :=
  (extractStrValue json "attached_condition".toList).elim [] columnsOf

/-- `"table_name"` -/
def tableNameKey : Str := "table_name".toList

/-- What the loop of `parse_explain_json` pushes, for the text from a `"table_name"` on. -/
def explainSignals (parseF32 : Str → Option Float32) (remaining : Str) : ExplainSignals where
  table := (extractStrValue remaining tableNameKey).getD []
  accessType := .fromStr ((extractStrValue remaining "access_type".toList).getD [])
  rowsExamined := (extractU64Value remaining "rows_examined_per_scan".toList).getD 0
  filteredPct := (extractF32Value parseF32 remaining "filtered".toList).getD 100.0
  hasFilesort := extractBoolValue remaining "using_filesort".toList
  hasTempTable := extractBoolValue remaining "using_temporary_table".toList
  usedIndex := extractStrValue remaining "key".toList
  possibleIndexes := extractArrayStrings remaining "possible_keys".toList
  whereColumns := extractWhereColumns remaining

/-- The loop of `parse_explain_json`, for at most so many tables. -/
def parseExplainLoop (parseF32 : Str → Option Float32) : Nat → Str → List ExplainSignals
  | 0, _ => []
  | n + 1, remaining =>
    match splitFirst (needle tableNameKey) remaining with
    | none => []
    | some (before, _) =>
      let remaining := remaining.drop before.length
      explainSignals parseF32 remaining :: parseExplainLoop parseF32 n remaining.tail

/-- `parse_explain_json`. Every round takes at least one character. -/
def parseExplainJson (parseF32 : Str → Option Float32) (json : Str) : List ExplainSignals :=
  parseExplainLoop parseF32 json.length json

/-! ## What a plan says about its tables -/

/-- What is said about one table. -/
structure TableSignals where
  table : Str
  accessType : AccessType
  rowsExamined : Nat
  usedIndex : Option Str
  possibleIndexes : List Str
  whereColumns : List Str
  deriving DecidableEq

/-- What the signals say about their table. -/
def ExplainSignals.perTable (s : ExplainSignals) : TableSignals :=
  ⟨s.table, s.accessType, s.rowsExamined, s.usedIndex, s.possibleIndexes, s.whereColumns⟩

/-- What members say about a table, each found by its name; a member that is missing is absent. -/
def TableSignals.of (find : Str → Option Value) : TableSignals where
  table := ((find tableNameKey).bind Node.string?).getD []
  accessType := .fromStr (((find "access_type".toList).bind Node.string?).getD [])
  rowsExamined := ((find "rows_examined_per_scan".toList).bind (Node.natural? (2 ^ 64))).getD 0
  usedIndex := (find "key".toList).bind Node.string?
  possibleIndexes := ((find "possible_keys".toList).bind Node.array?).getD []
  whereColumns := ((find "attached_condition".toList).bind Node.string?).elim [] columnsOf

/-- The table nodes of a plan, in the order in which their names are written, each by the member with its name and the
members written behind it. -/
def tablesOf (plan : Value) : List (Member × List Member) := membersFrom tableNameKey (members plan.document)

/-- The members of the node itself. -/
def ownMember (m : Member) (key : Str) : Option Value := (m.object.all key).head?

/-- The first member of a name, whichever node it belongs to. -/
def firstMember (ms : List Member) (key : Str) : Option Value := (ms.find? (·.name.value = key)).map (·.value)

/-- A string that is written without a backslash, and is not among the exceptions. -/
def readableString (exceptions : List Str) : Value → Bool
  | .string s => !s.raw.contains '\\' && !exceptions.contains s.value
  | _ => true

/-- A number that is written with digits only. -/
def readableNumber : Value → Bool
  | .literal (.number text _) => text.all Char.isDigit
  | _ => true

/-- An element that is written in an array as it is. -/
def plainElement (s : Quoted) : Bool :=
  !s.raw.contains '\\' && !s.raw.contains ',' && !s.raw.contains ']' && s.value != [] && s.value != "null".toList

/-- An array of strings in which no character has a meaning outside of strings. -/
def readableArray : Value → Bool
  | .array items => items.allStrings plainElement
  | _ => true

/-- The members that are read, and which of their values can be read without regard to quotes. -/
def explainMembers : List (Str × (Value → Bool)) :=
  [(tableNameKey, readableString ["null".toList]), ("access_type".toList, readableString []),
    ("rows_examined_per_scan".toList, readableNumber), ("key".toList, readableString ["null".toList, []]),
    ("possible_keys".toList, readableArray), ("attached_condition".toList, readableString [])]

/-- A token that shows the names that are searched for, with a value that can be read if it is one of them. -/
def IsReadable (tok : Json.Token) : Prop := ∀ k ∈ explainMembers,
  tok.Shows k.1 ∧ tok.member?.all (fun m => m.name.value != k.1 || k.2 m.value) = true

instance : DecidablePred IsReadable := fun _ => inferInstanceAs (Decidable (∀ k ∈ explainMembers, _))

/-- A plan that can be read by searching: the names that are searched for are found as names only, and what is behind
them can be read. -/
structure Searchable (plan : Value) : Prop where
  tables : ∀ tok ∈ plan.document, tok.Shows tableNameKey
  members : ∀ tok ∈ plan.document.dropWhile (!·.isNamed tableNameKey), IsReadable tok

/-! ## Searching -/

theorem splitFirst_suffixesAt {pat : Str} (hpat : pat ≠ []) (s : Str) :
    (splitFirst pat s).map Prod.snd = (suffixesAt pat s).head?.map (·.drop pat.length) := by
  induction s with
  | nil =>
    rw [splitFirst, if_neg (by simpa using hpat)]
    rfl
  | cons c s ih =>
    rw [splitFirst, suffixesAt]
    split
    · rfl
    · rw [← ih, Option.map_map]
      rfl

theorem suffixesAt_eq {pat : Str} (hpat : pat ≠ []) (s : Str) : suffixesAt pat s =
    match splitFirst pat s with
    | none => []
    | some (before, _) => s.drop before.length :: suffixesAt pat (s.drop before.length).tail := by
  induction s with
  | nil =>
    rw [splitFirst, if_neg (by simpa using hpat)]
    rfl
  | cons c s ih =>
    rw [splitFirst, suffixesAt]
    split
    · rfl
    · rw [ih]
      cases splitFirst pat s with
      | none => rfl
      | some p => rfl

/-- The loop reads from every place where the name of a table stands in quotes. -/
theorem parseExplainJson_eq (parseF32 : Str → Option Float32) (json : Str) :
    parseExplainJson parseF32 json = (suffixesAt (needle tableNameKey) json).map (explainSignals parseF32) := by
  have hloop : ∀ (n : Nat) (s : Str), s.length ≤ n →
      parseExplainLoop parseF32 n s = (suffixesAt (needle tableNameKey) s).map (explainSignals parseF32) := by
    intro n
    induction n with
    | zero =>
      intro s hs
      obtain rfl := List.length_eq_zero_iff.mp (Nat.le_zero.mp hs)
      rfl
    | succ n ih =>
      intro s hs
      rw [parseExplainLoop, suffixesAt_eq (by simp [needle])]
      cases hsplit : splitFirst (needle tableNameKey) s with
      | none => rfl
      | some p =>
        obtain ⟨before, after⟩ := p
        have hlength := splitFirst_length hsplit
        have hshort : (s.drop before.length).tail.length ≤ n := by
          rw [List.length_tail, List.length_drop]
          omega
        exact congrArg (explainSignals parseF32 (s.drop before.length) :: ·) (ih _ hshort)
  exact hloop json.length json (Nat.le_refl _)

/-! ## White space -/

/-- The tokens from the first one on that is no white space. -/
def skipBlanks (ts : List Json.Token) : List Json.Token := ts.dropWhile (!·.counts)

theorem not_blank_of_literal {c : Char} (h : beginsLiteral c = true) : isWhitespace c = false := by
  simp only [beginsLiteral, Bool.or_eq_true, beq_iff_eq] at h
  rcases h with (((rfl | rfl) | rfl) | rfl) | hdigit
  · decide
  · decide
  · decide
  · decide
  · have hrange : 48 ≤ c.toNat ∧ c.toNat ≤ 57 := by simpa [Char.isDigit, UInt32.le_iff_toNat_le] using hdigit
    simp [isWhitespace]
    omega

theorem trimStart_cons_of_not_blank {c : Char} (s : Str) (hc : isWhitespace c = false) : trimStart (c :: s) = c :: s :=
  List.dropWhile_cons_of_neg (by rw [hc]; exact Bool.false_ne_true)

theorem trimStart_text (ts : List Json.Token) : trimStart (text ts) = text (skipBlanks ts) := by
  induction ts with
  | nil => rfl
  | cons tok ts ih =>
    cases tok with
    | blank b =>
      have hblank : isWhitespace b.char = true := by cases b <;> decide
      have hskip : skipBlanks (.blank b :: ts) = skipBlanks ts := rfl
      rw [hskip, ← ih]
      exact List.dropWhile_cons_of_pos hblank
    | mark m => exact trimStart_cons_of_not_blank _ (by cases m <;> decide)
    | literal l =>
      obtain ⟨c, rest, hl, hc⟩ := l.head
      have hskip : skipBlanks (.literal l :: ts) = .literal l :: ts := rfl
      rw [hskip, text_cons, Json.Token.text, hl]
      exact trimStart_cons_of_not_blank _ (not_blank_of_literal hc)
    | string s => exact trimStart_cons_of_not_blank _ (by decide)
    | name m => exact trimStart_cons_of_not_blank _ (by decide)

theorem strip_skipBlanks (ts : List Json.Token) : strip (skipBlanks ts) = strip ts := by
  induction ts with
  | nil => rfl
  | cons tok ts ih =>
    cases tok with
    | blank b => exact ih
    | mark | literal | string | name => rfl

/-- The first token that is no white space. -/
theorem skipBlanks_eq {ts rest : List Json.Token} {tok : Json.Token} (h : strip ts = tok :: rest) :
    ∃ ts', skipBlanks ts = tok :: ts' ∧ strip ts' = rest := by
  induction ts with
  | nil => cases h
  | cons tok' ts ih =>
    cases tok' with
    | blank b => exact ih h
    | mark | literal | string | name =>
      obtain ⟨rfl, hrest⟩ := List.cons_eq_cons.mp h
      exact ⟨ts, rfl, hrest⟩

/-- Where there is no white space in front it is the first token. -/
theorem eq_of_skipped {ts rest : List Json.Token} {tok : Json.Token} (hskip : skipBlanks ts = ts)
    (h : strip ts = tok :: rest) : ∃ ts', ts = tok :: ts' ∧ strip ts' = rest :=
  hskip ▸ skipBlanks_eq h

/-! ## Values -/

section Values

variable {key : Str} {ts : List Json.Token} {v : Value} {obj : Members} {mark : Mark} {rest : List Json.Token}

/-- What is read behind a name: the first member with it that is written there, from its value on. -/
theorem behindKey_text (hkey : isKey key = true) (hkeyed : Keyed ts) (hshows : ∀ tok ∈ ts, tok.Shows key) :
    (members ts).find? (·.name.value = key) = none ∧ behindKey (text ts) key = none ∨
      ∃ m mark rest ts', (members ts).find? (·.name.value = key) = some m ∧ behindKey (text ts) key = some (text ts') ∧
        strip ts' = m.value.tokens m.object ++ .mark mark :: rest ∧ skipBlanks ts' = ts' := by
  have hsplit : (splitFirst (needle key) (text ts)).map Prod.snd = (namedTails key ts).head?.map fun p => text p.2 := by
    rw [splitFirst_suffixesAt (by simp [needle]), suffixesAt_text hkey hshows, List.head?_map, Option.map_map]
    refine congrArg (Option.map · _) (funext fun p => ?_)
    exact List.drop_left
  rw [find_members]
  cases hhead : (namedTails key ts).head? with
  | none =>
    rw [hhead, Option.map_none, Option.map_eq_none_iff] at hsplit
    refine .inl ⟨rfl, ?_⟩
    rw [behindKey, hsplit]
    rfl
  | some p =>
    obtain ⟨m, post⟩ := p
    rw [hhead, Option.map_some] at hsplit
    obtain ⟨⟨before, after⟩, hp, rfl⟩ := Option.map_eq_some_iff.mp hsplit
    obtain ⟨hsuffix, -⟩ := suffix_of_mem_namedTails (List.mem_of_head? hhead)
    obtain ⟨mark, rest, hpost⟩ := hkeyed m post hsuffix
    obtain ⟨post', hcolon, hvalue⟩ := skipBlanks_eq hpost
    refine .inr ⟨m, mark, rest, skipBlanks post', rfl, ?_, (strip_skipBlanks post').trans hvalue,
      List.dropWhile_idempotent _ _⟩
    rw [behindKey, hp, Option.bind_some]
    dsimp only
    rw [trimStart_text, hcolon, ← trimStart_text]
    rfl

/-- A single character is found first where it stands first. -/
theorem splitFirst_char {c : Char} {before : Str} (hc : c ∉ before) (after : Str) :
    splitFirst [c] (before ++ c :: after) = some (before, after) :=
  splitFirst_of_not_infix (List.cons_ne_nil c []) fun h => hc (by simpa using h.subset (.head []))

/-- A string, up to its next quote. -/
theorem quotedValue_text (hstrip : strip ts = v.tokens obj ++ .mark mark :: rest) (hskip : skipBlanks ts = ts)
    (hv : ∀ s, v = .string s → '\\' ∉ s.raw) :
    quotedValue (text ts) = v.string?.bind fun s => if s = "null".toList ∨ s = [] then none else some s := by
  cases v with
  | string s =>
    obtain ⟨ts', rfl, -⟩ := eq_of_skipped hskip hstrip
    have hraw := s.spells.eq_of_no_backslash (hv s rfl)
    have hquote := s.spells.no_quote (hv s rfl)
    rw [text_string, quotedValue, splitFirst_char hquote]
    simp only [Option.bind_some, Node.string?, hraw]
  | literal l =>
    obtain ⟨ts', rfl, -⟩ := eq_of_skipped hskip hstrip
    obtain ⟨c, rest, hl, hc⟩ := l.head
    rw [text_cons, Json.Token.text, hl]
    unfold quotedValue
    split
    · rename_i heq
      obtain ⟨rfl, -⟩ := List.cons_eq_cons.mp heq
      cases hc
    · rfl
  | array items =>
    obtain ⟨ts', rfl, -⟩ := eq_of_skipped hskip hstrip
    rfl
  | object members =>
    obtain ⟨ts', rfl, -⟩ := eq_of_skipped hskip hstrip
    rfl

theorem digitsValue_cons {c : Char} (s : Str) (hc : c.isDigit = false) : digitsValue (c :: s) = none := by
  rw [digitsValue, List.all_cons, hc, Bool.false_and, if_neg Bool.false_ne_true,
    List.takeWhile_cons_of_neg (by rw [hc]; exact Bool.false_ne_true)]
  rfl

/-- What follows a value does not begin with a digit. -/
theorem text_behind (h : strip ts = .mark mark :: rest) : ∃ c s, text ts = c :: s ∧ c.isDigit = false := by
  cases ts with
  | nil => cases h
  | cons tok ts =>
    cases tok with
    | blank b => exact ⟨b.char, text ts, rfl, by cases b <;> decide⟩
    | mark m => exact ⟨m.char, text ts, rfl, by cases m <;> decide⟩
    | literal | string | name => cases h

/-- A number, up to the end of its digits. -/
theorem digitsValue_text (hstrip : strip ts = v.tokens obj ++ .mark mark :: rest) (hskip : skipBlanks ts = ts)
    (hv : readableNumber v = true) : digitsValue (text ts) = v.natural? (2 ^ 64) := by
  cases v with
  | string s =>
    obtain ⟨ts', rfl, -⟩ := eq_of_skipped hskip hstrip
    rw [text_string]
    exact digitsValue_cons _ (by decide)
  | array items =>
    obtain ⟨ts', rfl, -⟩ := eq_of_skipped hskip hstrip
    exact digitsValue_cons _ (by decide)
  | object members =>
    obtain ⟨ts', rfl, -⟩ := eq_of_skipped hskip hstrip
    exact digitsValue_cons _ (by decide)
  | literal l =>
    obtain ⟨ts', rfl, hstrip'⟩ := eq_of_skipped hskip hstrip
    cases l with
    | null => exact digitsValue_cons _ (by decide)
    | true => exact digitsValue_cons _ (by decide)
    | false => exact digitsValue_cons _ (by decide)
    | number digits hnumber =>
      have hdigits : digits.all Char.isDigit = true := hv
      obtain ⟨c, s, hbehind, hc⟩ := text_behind hstrip'
      have hall : (digits ++ c :: s).all Char.isDigit = false := by
        rw [List.all_append, List.all_cons, hc, Bool.false_and, Bool.and_false]
      have htake : (digits ++ c :: s).takeWhile Char.isDigit = digits := by
        rw [List.takeWhile_append_of_pos (List.all_eq_true.mp hdigits),
          List.takeWhile_cons_of_neg (by rw [hc]; exact Bool.false_ne_true), List.append_nil]
      obtain ⟨d, ds, rfl, -⟩ := hnumber.head
      have hplus : (d :: ds).head? ≠ some '+' := by
        rw [List.head?_cons, ne_eq, Option.some.injEq]
        rintro rfl
        exact absurd (List.all_eq_true.mp hdigits _ (.head ds)) (by decide)
      rw [text_cons, Json.Token.text, Literal.text, hbehind, digitsValue, hall, if_neg Bool.false_ne_true, htake,
        Str.parseUnsigned, if_neg hplus, hdigits, Node.natural?, hdigits]
      simp

/-! ## Arrays -/

/-- Where nothing is left of the tokens but white space, their text is white space. -/
theorem text_blanks (h : strip ts = []) : ∀ c ∈ text ts, isWhitespace c = true ∧ c ≠ ',' ∧ c ≠ ']' := by
  induction ts with
  | nil => exact List.forall_mem_nil _
  | cons tok ts ih =>
    cases tok with
    | blank b =>
      refine List.forall_mem_cons.mpr ⟨?_, ih h⟩
      cases b <;> decide
    | mark | literal | string | name => cases h

/-- The tokens up to the first one that is no white space. -/
theorem split_strip {tok : Json.Token} (h : strip ts = tok :: rest) :
    ∃ blanks ts', ts = blanks ++ tok :: ts' ∧ strip blanks = [] ∧ strip ts' = rest := by
  induction ts with
  | nil => cases h
  | cons tok' ts ih =>
    cases tok' with
    | blank b =>
      obtain ⟨blanks, ts', rfl, hblanks, hrest⟩ := ih h
      exact ⟨.blank b :: blanks, ts', rfl, hblanks, hrest⟩
    | mark | literal | string | name =>
      obtain ⟨rfl, hrest⟩ := List.cons_eq_cons.mp h
      exact ⟨[], ts, rfl, rfl, hrest⟩

theorem dropWhile_of_not {p : Char → Bool} {l : Str} (h : ∀ c ∈ l, p c = false) : l.dropWhile p = l := by
  cases l with
  | nil => rfl
  | cons c l => exact List.dropWhile_cons_of_neg (by rw [h c (.head l)]; exact Bool.false_ne_true)

/-- A quoted string with white space around it. -/
theorem elementOf_quoted {before after raw : Str} (hbefore : ∀ c ∈ before, isWhitespace c = true)
    (hafter : ∀ c ∈ after, isWhitespace c = true) (hquote : '"' ∉ raw) :
    elementOf (before ++ '"' :: (raw ++ '"' :: after)) = if raw = [] ∨ raw = "null".toList then none else some raw := by
  have hstart : trimStart (before ++ '"' :: (raw ++ '"' :: after)) = '"' :: (raw ++ '"' :: after) := by
    rw [trimStart, List.dropWhile_append_of_pos hbefore]
    exact trimStart_cons_of_not_blank _ (by decide)
  have hreverse : ('"' :: (raw ++ '"' :: after)).reverse = after.reverse ++ '"' :: ('"' :: raw).reverse := by simp
  have htrim : trim (before ++ '"' :: (raw ++ '"' :: after)) = '"' :: (raw ++ ['"']) := by
    rw [trim, hstart, hreverse, List.dropWhile_append_of_pos fun c hc => hafter c (List.mem_reverse.mp hc),
      List.dropWhile_cons_of_neg (by decide)]
    simp
  have hquotes : trimMatches '"' ('"' :: (raw ++ ['"'])) = raw := by
    have hinner : (raw ++ ['"']).dropWhile (· == '"') = if raw = [] then [] else raw ++ ['"'] := by
      cases raw with
      | nil => rfl
      | cons c raw =>
        rw [if_neg (List.cons_ne_nil c raw), List.cons_append]
        exact List.dropWhile_cons_of_neg fun h => hquote (beq_iff_eq.mp h ▸ .head raw)
    have hend : trimEndMatches '"' (raw ++ ['"']) = raw := by
      rw [trimEndMatches, List.reverse_append, List.reverse_singleton, List.singleton_append,
        List.dropWhile_cons_of_pos (by decide), dropWhile_of_not fun c hc => ?_, List.reverse_reverse]
      exact beq_false_of_ne fun h => hquote (h ▸ List.mem_reverse.mp hc)
    rw [trimMatches, List.dropWhile_cons_of_pos (by decide), hinner]
    split
    · rename_i hnil
      rw [hnil]
      rfl
    · exact hend
  rw [elementOf, htrim]
  simp only [hquotes]

/-- One element, with white space around it. -/
theorem element_text {before after : List Json.Token} {s : Quoted} (hs : plainElement s = true)
    (hbefore : strip before = []) (hafter : strip after = []) :
    ',' ∉ text (before ++ .string s :: after) ∧ ']' ∉ text (before ++ .string s :: after) ∧
      elementOf (text (before ++ .string s :: after)) = some s.value := by
  obtain ⟨⟨⟨⟨hslash, hcomma⟩, hbracket⟩, hnil⟩, hnull⟩ :
      ((('\\' ∉ s.raw ∧ ',' ∉ s.raw) ∧ ']' ∉ s.raw) ∧ s.value ≠ []) ∧ s.value ≠ "null".toList := by
    simpa [plainElement] using hs
  have hraw := s.spells.eq_of_no_backslash hslash
  have hblank := text_blanks hbefore
  have hblank' := text_blanks hafter
  rw [text_append, text_string]
  refine ⟨?_, ?_, ?_⟩
  · simp only [List.mem_append, List.mem_cons, not_or]
    exact ⟨fun h => (hblank _ h).2.1 rfl, by decide, hcomma, by decide, fun h => (hblank' _ h).2.1 rfl⟩
  · simp only [List.mem_append, List.mem_cons, not_or]
    exact ⟨fun h => (hblank _ h).2.2 rfl, by decide, hbracket, by decide, fun h => (hblank' _ h).2.2 rfl⟩
  · rw [elementOf_quoted (fun c hc => (hblank c hc).1) (fun c hc => (hblank' c hc).1) (s.spells.no_quote hslash), hraw,
      if_neg (not_or.mpr ⟨hnil, hnull⟩)]

/-- The text between the brackets of an array. -/
theorem elements_text (obj : Members) : ∀ (items : Node .items), items.allStrings plainElement = true →
    ∀ {ts : List Json.Token}, strip ts = items.tokens obj →
      ']' ∉ text ts ∧ ((text ts).splitOnP (· == ',')).filterMap elementOf = items.strings
  | .noItem, _, ts, hstrip => by
    have hblank := text_blanks hstrip
    have hsingle : (text ts).splitOnP (· == ',') = [text ts] :=
      List.splitOnP_eq_singleton fun c hc => beq_false_of_ne (hblank c hc).2.1
    have htrim : trim (text ts) = [] := by
      rw [trim, trimStart, List.dropWhile_eq_nil_iff.mpr fun c hc => (hblank c hc).1]
      rfl
    have helement : elementOf (text ts) = none := by
      rw [elementOf, htrim]
      exact if_pos (.inl rfl)
    refine ⟨fun h => (hblank _ h).2.2 rfl, ?_⟩
    rw [hsingle, List.filterMap_cons, helement]
    rfl
  | .item v .noItem, hitems, ts, hstrip => by
    obtain ⟨s, rfl, hs, -⟩ := Node.allStrings_item hitems
    obtain ⟨before, after, rfl, hbefore, hafter⟩ := split_strip hstrip
    obtain ⟨hcomma, hbracket, helement⟩ := element_text hs hbefore hafter
    have hsingle : (text (before ++ .string s :: after)).splitOnP (· == ',') = [text (before ++ .string s :: after)] :=
      List.splitOnP_eq_singleton fun c hc => beq_false_of_ne fun h => hcomma (h ▸ hc)
    refine ⟨hbracket, ?_⟩
    rw [hsingle, List.filterMap_cons, helement]
    rfl
  | .item v (.item w rest), hitems, ts, hstrip => by
    obtain ⟨s, rfl, hs, hrest⟩ := Node.allStrings_item hitems
    obtain ⟨before, behind, rfl, hbefore, hbehind⟩ := split_strip hstrip
    obtain ⟨after, ts', rfl, hafter, hts'⟩ := split_strip hbehind
    obtain ⟨hcomma, hbracket, helement⟩ := element_text hs hbefore hafter
    obtain ⟨hbracket', helements⟩ := elements_text obj (.item w rest) hrest hts'
    have htext : text (before ++ .string s :: (after ++ .mark .comma :: ts')) =
        text (before ++ .string s :: after) ++ ',' :: text ts' := by
      rw [show before ++ .string s :: (after ++ .mark .comma :: ts') =
        before ++ .string s :: after ++ .mark .comma :: ts' by simp, text_append]
      rfl
    have hsplit : (text (before ++ .string s :: after) ++ ',' :: text ts').splitOnP (· == ',') =
        text (before ++ .string s :: after) :: (text ts').splitOnP (· == ',') :=
      List.splitOnP_append_cons_of_forall_mem
        (fun c hc => beq_false_of_ne fun h : c = ',' => hcomma (h ▸ hc)) ',' rfl _
    rw [htext, List.mem_append, List.mem_cons, not_or, not_or]
    refine ⟨⟨hbracket, by decide, hbracket'⟩, ?_⟩
    rw [hsplit, List.filterMap_cons, helement, Node.strings]
    exact congrArg (s.value :: ·) helements

/-- An array, up to its next closing bracket. -/
theorem arrayValue_text (hstrip : strip ts = v.tokens obj ++ .mark mark :: rest) (hskip : skipBlanks ts = ts)
    (hv : readableArray v = true) : arrayValue (text ts) = v.array?.getD [] := by
  cases v with
  | string s =>
    obtain ⟨ts', rfl, -⟩ := eq_of_skipped hskip hstrip
    rfl
  | literal l =>
    obtain ⟨ts', rfl, -⟩ := eq_of_skipped hskip hstrip
    obtain ⟨c, rest, hl, hc⟩ := l.head
    rw [text_cons, Json.Token.text, hl]
    unfold arrayValue
    split
    · rename_i heq
      obtain ⟨rfl, -⟩ := List.cons_eq_cons.mp heq
      cases hc
    · rfl
  | object members =>
    obtain ⟨ts', rfl, -⟩ := eq_of_skipped hskip hstrip
    rfl
  | array items =>
    obtain ⟨ts', rfl, hstrip'⟩ := eq_of_skipped hskip hstrip
    obtain ⟨inner, outer, rfl, hinner, houter⟩ :=
      List.filter_eq_append_iff.mp (hstrip'.trans (List.append_assoc (items.tokens obj) _ _))
    have houter : strip outer = .mark .closeBracket :: .mark mark :: rest := houter
    obtain ⟨blanks, outer', rfl, hblanks, -⟩ := split_strip houter
    have hbracket : strip (inner ++ blanks) = items.tokens obj := by
      rw [strip, List.filter_append, ← strip, ← strip, hblanks, List.append_nil]
      exact hinner
    obtain ⟨hno, helements⟩ := elements_text obj items hv hbracket
    have htext : text (inner ++ (blanks ++ .mark .closeBracket :: outer')) =
        text (inner ++ blanks) ++ ']' :: text outer' := by
      rw [← List.append_assoc, text_append]
      rfl
    rw [text_cons, Json.Token.text]
    change arrayValue ('[' :: text (inner ++ (blanks ++ .mark .closeBracket :: outer'))) = items.strings
    rw [htext, arrayValue, splitFirst_char hno]
    exact helements

/-! ## The extract functions -/

/-- What is left of a string if an empty one and `null` are taken for absent. -/
def present (s : Str) : Option Str := if s = "null".toList ∨ s = [] then none else some s

variable (hkey : isKey key = true) (hkeyed : Keyed ts) (hshows : ∀ tok ∈ ts, tok.Shows key)

include hkey hkeyed hshows

/-- What is read behind a name is what the first member with the name has, if its value is read as it should. -/
theorem bind_behindKey {α : Type} {read : Str → Option α} {get : Value → Option α}
    (hread : ∀ v, firstMember (members ts) key = some v → ∀ {ts' rest obj mark},
      strip ts' = v.tokens obj ++ .mark mark :: rest → skipBlanks ts' = ts' → read (text ts') = get v) :
    (behindKey (text ts) key).bind read = (firstMember (members ts) key).bind get := by
  rcases behindKey_text hkey hkeyed hshows with ⟨hnone, hbehind⟩ | ⟨m, mark, rest, ts', hm, hbehind, hstrip, hskip⟩
  · rw [hbehind, firstMember, hnone]
    rfl
  · have hfirst : firstMember (members ts) key = some m.value := by
      rw [firstMember, hm]
      rfl
    rw [hbehind, hfirst]
    exact hread m.value hfirst hstrip hskip

theorem extractStrValue_text
    (hread : ∀ v, firstMember (members ts) key = some v → ∀ s, v = .string s → '\\' ∉ s.raw) :
    extractStrValue (text ts) key = ((firstMember (members ts) key).bind Node.string?).bind present := by
  rw [extractStrValue, Option.bind_assoc]
  exact bind_behindKey hkey hkeyed hshows fun v hv _ _ _ _ hstrip hskip => quotedValue_text hstrip hskip (hread v hv)

theorem extractU64Value_text (hread : ∀ v, firstMember (members ts) key = some v → readableNumber v = true) :
    extractU64Value (text ts) key = (firstMember (members ts) key).bind (Node.natural? (2 ^ 64)) :=
  bind_behindKey hkey hkeyed hshows fun v hv _ _ _ _ hstrip hskip => digitsValue_text hstrip hskip (hread v hv)

theorem extractArrayStrings_text (hread : ∀ v, firstMember (members ts) key = some v → readableArray v = true) :
    extractArrayStrings (text ts) key = ((firstMember (members ts) key).bind Node.array?).getD [] := by
  have hsome : (behindKey (text ts) key).bind (fun after => some (arrayValue after)) =
      (firstMember (members ts) key).bind fun v => some (v.array?.getD []) :=
    bind_behindKey hkey hkeyed hshows fun v hv _ _ _ _ hstrip hskip =>
      congrArg some (arrayValue_text hstrip hskip (hread v hv))
  rw [extractArrayStrings]
  cases hbehind : behindKey (text ts) key <;> cases hfirst : firstMember (members ts) key <;>
    rw [hbehind, hfirst] at hsome
  · rfl
  · cases hsome
  · cases hsome
  · exact Option.some.inj hsome

end Values

/-! ## Tables -/

section Present

variable {o : Option Str}

theorem getD_present (h : ∀ s, o = some s → s ∉ ["null".toList]) : (o.bind present).getD [] = o.getD [] := by
  cases o with
  | none => rfl
  | some s =>
    rw [Option.bind_some, present]
    split
    · rename_i hs
      rcases hs with rfl | rfl
      · exact absurd (.head []) (h _ rfl)
      · rfl
    · rfl

theorem bind_present (h : ∀ s, o = some s → s ∉ ["null".toList, []]) : o.bind present = o := by
  cases o with
  | none => rfl
  | some s =>
    rw [Option.bind_some, present, if_neg]
    rintro (rfl | rfl)
    · exact h _ rfl (.head _)
    · exact h _ rfl (.tail _ (.head _))

/-- What takes `null` for an empty string does not tell the two from an absent one. -/
theorem elim_present {β : Type} {f : Str → β} (h : f "null".toList = f []) :
    (o.bind present).elim (f []) f = o.elim (f []) f := by
  cases o with
  | none => rfl
  | some s =>
    rw [Option.bind_some, present]
    split
    · rename_i hs
      rcases hs with rfl | rfl
      · exact h.symm
      · rfl
    · rfl

theorem fromStr_present (o : Option Str) :
    AccessType.fromStr ((o.bind present).getD []) = AccessType.fromStr (o.getD []) := by
  have hget (o : Option Str) : AccessType.fromStr (o.getD []) = o.elim (AccessType.fromStr []) AccessType.fromStr := by
    cases o <;> rfl
  rw [hget, hget]
  exact elim_present (by decide)

theorem columnsOf_present (o : Option Str) : (o.bind present).elim [] columnsOf = o.elim [] columnsOf :=
  elim_present (f := columnsOf) (by decide)

end Present

section Tables

variable {ts : List Json.Token}

/-- A member that is found can be read. -/
theorem readable_firstMember (h : ∀ tok ∈ ts, IsReadable tok) {key : Str} {p : Value → Bool}
    (hk : (key, p) ∈ explainMembers) (v : Value) (hv : firstMember (members ts) key = some v) : p v = true := by
  obtain ⟨m, hm, rfl⟩ := Option.map_eq_some_iff.mp hv
  obtain ⟨tok, htok, hmember⟩ := List.mem_filterMap.mp (List.mem_of_find?_eq_some hm)
  have hread := (h tok htok (key, p) hk).2
  have hname : m.name.value = key := by simpa using List.find?_some hm
  rwa [hmember, Option.all_some, hname, bne_self_eq_false, Bool.false_or] at hread

/-- The signals that are read from a place on are what the first members from there on say. -/
theorem perTable_explainSignals (parseF32 : Str → Option Float32) (hkeyed : Keyed ts)
    (h : ∀ tok ∈ ts, IsReadable tok) :
    (explainSignals parseF32 (text ts)).perTable = TableSignals.of (firstMember (members ts)) := by
  have hstr : ∀ {key : Str} {exceptions : List Str}, isKey key = true →
      (key, readableString exceptions) ∈ explainMembers →
      extractStrValue (text ts) key = ((firstMember (members ts) key).bind Node.string?).bind present ∧
        ∀ s, (firstMember (members ts) key).bind Node.string? = some s → s ∉ exceptions := by
    intro key exceptions hkey hk
    have hread : ∀ v, firstMember (members ts) key = some v → ∀ s, v = .string s →
        '\\' ∉ s.raw ∧ s.value ∉ exceptions := by
      rintro v hv s rfl
      simpa [readableString] using readable_firstMember h hk _ hv
    refine ⟨extractStrValue_text hkey hkeyed (fun tok htok => (h tok htok _ hk).1)
      fun v hv s hs => (hread v hv s hs).1, fun s hs => ?_⟩
    obtain ⟨v, hv, hvs⟩ := Option.bind_eq_some_iff.mp hs
    cases v with
    | string q =>
      obtain rfl := Option.some.inj hvs
      exact (hread _ hv q rfl).2
    | literal | array | object => cases hvs
  have hname : isKey tableNameKey = true := by decide
  obtain ⟨htable, htable'⟩ := hstr hname (.head _)
  obtain ⟨haccess, -⟩ := hstr (by decide) (.tail _ (.head _))
  obtain ⟨hindex, hindex'⟩ := hstr (by decide) (.tail _ (.tail _ (.tail _ (.head _))))
  obtain ⟨hcondition, -⟩ := hstr (by decide) (.tail _ (.tail _ (.tail _ (.tail _ (.tail _ (.head _))))))
  have hrows : (_, readableNumber) ∈ explainMembers := .tail _ (.tail _ (.head _))
  have hkeys : (_, readableArray) ∈ explainMembers := .tail _ (.tail _ (.tail _ (.tail _ (.head _))))
  have hrows' := extractU64Value_text (by decide) hkeyed (fun tok htok => (h tok htok _ hrows).1)
    (readable_firstMember h hrows)
  have hkeys' := extractArrayStrings_text (by decide) hkeyed (fun tok htok => (h tok htok _ hkeys).1)
    (readable_firstMember h hkeys)
  rw [ExplainSignals.perTable, explainSignals, TableSignals.of]
  dsimp only
  rw [extractWhereColumns, htable, haccess, hindex, hcondition, hrows', hkeys', getD_present htable',
    fromStr_present, bind_present hindex', columnsOf_present]

/-- What is dropped from the front of a list ends before the first element that stops it. -/
theorem suffix_dropWhile {α : Type} {p : α → Bool} {x : α} {l l' : List α} (h : x :: l' <:+ l) (hx : p x = false) :
    x :: l' <:+ l.dropWhile p := by
  induction l with
  | nil => exact absurd (List.suffix_nil.mp h) (List.cons_ne_nil x l')
  | cons c l ih =>
    by_cases hc : p c = true
    · rw [List.dropWhile_cons_of_pos hc]
      rcases List.suffix_cons_iff.mp h with heq | h
      · obtain ⟨rfl, -⟩ := List.cons_eq_cons.mp heq
        rw [hx] at hc
        cases hc
      · exact ih h
    · rw [List.dropWhile_cons_of_neg hc]
      exact h

/-- White space does not matter for what a property says of all tokens. -/
theorem forall_of_strip {P : Json.Token → Prop} (hblank : ∀ b, P (.blank b)) (h : ∀ tok ∈ strip ts, P tok) :
    ∀ tok ∈ ts, P tok := by
  intro tok htok
  cases tok with
  | blank b => exact hblank b
  | mark | literal | string | name => exact h _ (List.mem_filter.mpr ⟨htok, rfl⟩)

/-- The signals are those of the tables whose names are found, each read from its name on. -/
theorem parseExplainJson_text (parseF32 : Str → Option Float32) {plan : Value} (hplan : Searchable plan) {t : Str}
    (ht : Json.IsText plan t) :
    (parseExplainJson parseF32 t).map ExplainSignals.perTable =
      (tablesOf plan).map fun p => TableSignals.of (firstMember (p.1 :: p.2)) := by
  obtain ⟨ts, hstrip, rfl⟩ := ht
  have hshows : ∀ tok ∈ ts, tok.Shows tableNameKey :=
    forall_of_strip (fun _ => trivial) fun tok htok => hplan.tables tok (hstrip ▸ htok)
  have hkeyed : Keyed ts := Keyed.of_strip (hstrip ▸ plan.keyed_document)
  have htables : tablesOf plan = (namedTails tableNameKey ts).map fun p => (p.1, members p.2) := by
    rw [tablesOf, ← hstrip, members_strip, membersFrom_members]
  rw [parseExplainJson_eq, suffixesAt_text (by decide) hshows, htables, List.map_map, List.map_map, List.map_map]
  refine List.map_congr_left fun p hp => ?_
  obtain ⟨m, post⟩ := p
  obtain ⟨hsuffix, hname⟩ := suffix_of_mem_namedTails hp
  have hraw : m.name.raw = tableNameKey := hshows _ (hsuffix.subset (.head post)) (.inr hname)
  have htext : needle tableNameKey ++ text post = text (.name m :: post) := by
    rw [text_name, hraw]
    simp [needle]
  have hreads : ∀ tok ∈ Json.Token.name m :: post, IsReadable tok := by
    refine forall_of_strip (fun _ _ _ => ⟨trivial, rfl⟩) fun tok htok => ?_
    have hstop : (!(Json.Token.name m).isNamed tableNameKey) = false := by
      simp [Json.Token.isNamed, Json.Token.member?, hname]
    have hdocument : .name m :: strip post <:+ plan.document := hstrip ▸ hsuffix.filter Json.Token.counts
    exact hplan.members tok ((suffix_dropWhile hdocument hstop).subset htok)
  change (explainSignals parseF32 (needle tableNameKey ++ text post)).perTable = _
  rw [htext]
  exact perTable_explainSignals parseF32 (hkeyed.of_suffix hsuffix) hreads

/-- **The tables of a plan get their own values exactly if** the first members of the names that are read, from the name
of each table on, say of it what its own members say. -/
theorem parseExplainJson_iff (parseF32 : Str → Option Float32) (plan : Value) (t : Str) (hplan : Searchable plan)
    (ht : Json.IsText plan t) :
    (parseExplainJson parseF32 t).map ExplainSignals.perTable =
        (tablesOf plan).map (fun p => TableSignals.of (ownMember p.1)) ↔
      ∀ p ∈ tablesOf plan, TableSignals.of (firstMember (p.1 :: p.2)) = TableSignals.of (ownMember p.1) := by
  rw [parseExplainJson_text parseF32 hplan ht]
  exact List.map_inj_left

end Tables

/-! ## Plans -/

/-- Members that are strings. -/
def stringMembers : List (Quoted × Quoted) → Members
  | [] => .noMember
  | (name, s) :: rest => .member name (.string s) (stringMembers rest)

/-- A table node of a plan. -/
def tableNode (members : List (Quoted × Quoted)) : Value :=
  .object (.member (.ofString "table" (by decide)) (.object (stringMembers members)) .noMember)

/-- A join of two tables. -/
def joinPlan (outer inner : List (Quoted × Quoted)) : Value :=
  .object (.member (.ofString "query_block" (by decide)) (.object (.member (.ofString "nested_loop" (by decide))
    (.array (.item (tableNode outer) (.item (tableNode inner) .noItem))) .noMember)) .noMember)

/-- `"table_name": "orders", "access_type": "ref", "key": "by_user"` -/
def keyedOrdersMembers : List (Quoted × Quoted) :=
  [(.ofString "table_name" (by decide), .ofString "orders" (by decide)),
    (.ofString "access_type" (by decide), .ofString "ref" (by decide)),
    (.ofString "key" (by decide), .ofString "by_user" (by decide))]

/-- `"table_name": "orders", "access_type": "ALL"` -/
def ordersMembers : List (Quoted × Quoted) :=
  [(.ofString "table_name" (by decide), .ofString "orders" (by decide)),
    (.ofString "access_type" (by decide), .ofString "ALL" (by decide))]

/-- `"table_name": "users", "access_type": "eq_ref", "key": "PRIMARY"` -/
def usersMembers : List (Quoted × Quoted) :=
  [(.ofString "table_name" (by decide), .ofString "users" (by decide)),
    (.ofString "access_type" (by decide), .ofString "eq_ref" (by decide)),
    (.ofString "key" (by decide), .ofString "PRIMARY" (by decide))]

/-- Two tables with all their members. -/
theorem parseExplainJson_keyed :
    let plan := joinPlan keyedOrdersMembers usersMembers
    (parseExplainJson (fun _ => none) (text plan.document ++ [])).map ExplainSignals.perTable =
      (tablesOf plan).map fun p => TableSignals.of (ownMember p.1) :=
  (parseExplainJson_iff (fun _ => none) (joinPlan keyedOrdersMembers usersMembers) _
    ⟨by decide +kernel, by decide +kernel⟩ (isText_append _ [])).mpr (by decide +kernel)

/-- The table that is scanned gets the index of the other one. -/
theorem index_of_other_table :
    ¬ ∀ (parseF32 : Str → Option Float32) (plan : Value) (t : Str), Json.IsText plan t →
      (parseExplainJson parseF32 t).map ExplainSignals.perTable =
        (tablesOf plan).map fun p => TableSignals.of (ownMember p.1) := by
  intro h
  have hplan := h (fun _ => none) (joinPlan ordersMembers usersMembers) _ (isText_append _ [])
  exact absurd hplan (by decide +kernel)

end TurbineProxy
