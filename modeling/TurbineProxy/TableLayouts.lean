import Mathlib.Data.List.Destutter
import TurbineProxy.QueryCache
import TurbineProxy.TextSearch

/-!
# How a statement may write its tables

The cache drops an answer when a statement writes one of its tables, if `extract_tables_simple` finds the table
in both texts. It looks for the name right behind a keyword and one space, and takes the quotes off its ends.

`Mentions` is about what SQL allows there, `MentionsPlainly` about what the extraction can read.
-/

namespace TurbineProxy

open Str

/-! ## Case -/

/-- Marks and blanks: what is no letter, digit or character of another script. -/
def isMark (c : Char) : Bool := (c.toNat < 128 && !c.isAlphanum) || isWhitespace c

/-- What the standard library says about its case mappings. -/
structure Casing.Lawful (u : Casing) : Prop where
  /-- `to_uppercase` maps every character by itself -/
  upper_append : ∀ s t, u.upper (s ++ t) = u.upper s ++ u.upper t
  /-- on ASCII, it is `to_ascii_uppercase` -/
  upper_ascii : ∀ c, c.toNat < 128 → u.upper [c] = [asciiUpper c]
  /-- blanks have no case -/
  upper_blank : ∀ c, isWhitespace c = true → u.upper [c] = [c]
  /-- marks are mapped from themselves only -/
  upper_mark : ∀ s k, k ∈ u.upper s → isMark k = true → k ∈ s
  /-- nothing vanishes -/
  upper_ne_nil : ∀ s, s ≠ [] → u.upper s ≠ []
  /-- `to_lowercase` maps every character by itself, except capital sigma -/
  lower_append : ∀ s t, 'Σ' ∉ s ++ t → u.lower (s ++ t) = u.lower s ++ u.lower t
  /-- on ASCII, it is `to_ascii_lowercase` -/
  lower_ascii : ∀ c, c.toNat < 128 → u.lower [c] = [asciiLower c]
  /-- marks are mapped from themselves only -/
  lower_mark : ∀ s k, k ∈ u.lower s → isMark k = true → k ∈ s
  /-- nothing vanishes -/
  lower_ne_nil : ∀ s, s ≠ [] → u.lower s ≠ []

/-! ## Layouts -/

/-- A backtick or a double quote. -/
def isNameQuote (c : Char) : Bool := c == Char.ofNat 0x60 || c == '"'

/-- Characters of a name. -/
def isNameChar (c : Char) : Bool := !isWhitespace c && !([',', '(', ')', ';', '.'].contains c) && !isNameQuote c

/-- A table as a statement writes it. -/
structure TableRef where
  /-- the schema, with its quotes if it has any -/
  schema : Option Str
  /-- the quotes around the name -/
  quote : Option Char
  /-- the name -/
  name : Str
  schemaChars : ∀ s ∈ schema, ∀ c ∈ s, isNameChar c = true ∨ isNameQuote c = true
  quoteChar : ∀ q ∈ quote, isNameQuote q = true
  nonempty : name ≠ []
  nameChars : ∀ c ∈ name, isNameChar c = true

namespace TableRef

/-- The schema and the dot. -/
def qualifier (r : TableRef) : Str := r.schema.elim [] fun s => s ++ ['.']

/-- The text of it. -/
def text (r : TableRef) : Str := r.qualifier ++ (r.quote.toList ++ (r.name ++ r.quote.toList))

/-- Quotes in the middle of the text. -/
def innerQuote (r : TableRef) : Str := r.schema.elim [] fun _ => r.quote.toList

end TableRef

/-- The words that precede a table. -/
def tableWords : List Str := ["FROM".toList, "JOIN".toList, "INTO".toList, "UPDATE".toList, "TABLE".toList]

/-- The statement names the table: behind a keyword and blanks, perhaps after other tables of the list. -/
def Mentions (sql : Str) (r : TableRef) : Prop :=
  ∃ (before keyword blanks : Str) (others : List TableRef) (after : Str),
    sql = before ++ (keyword ++ (blanks ++ (others.flatMap (fun o => o.text ++ ", ".toList) ++ (r.text ++ after)))) ∧
      toAsciiUppercase keyword ∈ tableWords ∧ blanks ≠ [] ∧ (∀ c ∈ blanks, isWhitespace c = true) ∧
        ∀ c ∈ after.head?, isNameChar c = false

/-- The characters that end a name for the extraction. -/
def nameStops : List Char := [' ', ',', '(', ';', '\n']

/-- The statement names the table so that the extraction can read it: a space comes right behind the keyword, the
table is the first of its list, and what ends it is one of `nameStops`. -/
def MentionsPlainly (sql : Str) (r : TableRef) : Prop :=
  ∃ before keyword blanks after : Str,
    sql = before ++ (keyword ++ ' ' :: (blanks ++ (r.text ++ after))) ∧
      toAsciiUppercase keyword ∈ tableWords ∧ (∀ c ∈ blanks, isWhitespace c = true) ∧
        ∀ c ∈ after.head?, c ∈ nameStops

/-- Whoever can be read is legal. -/
theorem MentionsPlainly.mentions {sql : Str} {r : TableRef} (h : MentionsPlainly sql r) : Mentions sql r := by
  obtain ⟨before, keyword, blanks, after, rfl, hkeyword, hblanks, hafter⟩ := h
  refine ⟨before, keyword, ' ' :: blanks, [], after, by simp, hkeyword, by simp, ?_, fun c hc => ?_⟩
  · intro c hc
    rcases List.mem_cons.mp hc with rfl | hc
    · rfl
    · exact hblanks c hc
  · have hstops : ∀ c ∈ nameStops, isNameChar c = false := forall_of_all (by decide)
    exact hstops c (hafter c hc)

/-! ## What the extraction finds -/

section Extraction

variable {u : Casing} {s t : Str}

/-- Neighbours that are equal are one, and nothing else goes. -/
theorem mem_destutter' {α : Type} [DecidableEq α] {a x : α} {l : List α} :
    x ∈ l.destutter' (· ≠ ·) a ↔ x = a ∨ x ∈ l := by
  induction l generalizing a with
  | nil => simp
  | cons b l ih =>
    by_cases hab : a = b
    · subst hab
      rw [List.destutter'_cons_neg _ (by simp), ih]
      simp
    · rw [List.destutter'_cons_pos _ hab, List.mem_cons, ih]
      simp

theorem mem_destutter {α : Type} [DecidableEq α] {x : α} {l : List α} : x ∈ l.destutter (· ≠ ·) ↔ x ∈ l := by
  cases l with
  | nil => simp
  | cons a l => simp [List.destutter_cons', mem_destutter']

theorem mem_extractTablesSimple {x : Str} {sql : Str} : x ∈ extractTablesSimple u sql ↔
    ∃ keyword ∈ tableKeywords, x ∈ tablesAfter u keyword.toList ((u.upper sql).length + 1) (u.upper sql) := by
  simp only [extractTablesSimple, mem_destutter, List.mem_insertionSort, List.mem_flatMap]

/-- An occurrence of the keyword is found, whichever comes before it. -/
theorem mem_tablesAfter {k : Char} {keyword before after : Str} (hk : k ∉ keyword)
    (hname : tableName u (trimStart after) ≠ []) {n : Nat} (hn : (before ++ (k :: keyword ++ after)).length < n) :
    tableName u (trimStart after) ∈ tablesAfter u (k :: keyword) n (before ++ (k :: keyword ++ after)) := by
  induction n generalizing before with
  | zero => exact absurd hn (Nat.not_lt_zero _)
  | succ n ih =>
    rw [tablesAfter]
    have hsome : (splitFirst (k :: keyword) (before ++ (k :: keyword ++ after))).isSome = true :=
      splitFirst_isSome.mpr ⟨before, after, by simp⟩
    obtain ⟨⟨before', rest⟩, hsplit⟩ := Option.isSome_iff_exists.mp hsome
    rw [hsplit]
    dsimp only
    -- the first occurrence is this one, or comes before it and leaves it whole
    rcases splitFirst_of_occurrence hk hsplit with ⟨rfl, rfl⟩ | ⟨m, rfl, rfl⟩
    · rw [if_neg (by simpa using hname)]
      exact .head _
    · have hshort : (m ++ (k :: keyword ++ after)).length < n := by
        simp only [List.length_append, List.length_cons] at hn ⊢
        omega
      have hlater := ih hshort
      split
      · exact hlater
      · exact .tail _ hlater

/-! ### Names -/

namespace TableRef

/-- What the extraction makes of it: a quote behind the dot of a schema stays. -/
def seen (u : Casing) (r : TableRef) : Str := r.innerQuote ++ u.lower (u.upper r.name)

variable {r : TableRef}

theorem quote_cases (r : TableRef) : r.quote = none ∨ r.quote = some (Char.ofNat 0x60) ∨ r.quote = some '"' := by
  cases hq : r.quote with
  | none => exact .inl rfl
  | some q =>
    have hquote := r.quoteChar q hq
    rw [isNameQuote, Bool.or_eq_true, beq_iff_eq, beq_iff_eq] at hquote
    exact .inr (hquote.imp (congrArg some) (congrArg some))

/-- A mark that names do not have is not in the upper case of one. -/
theorem not_mem_upper (hu : u.Lawful) {c : Char} (hmark : isMark c = true) (hc : isNameChar c = false) :
    c ∉ u.upper r.name := by
  intro hmem
  have hname := r.nameChars c (hu.upper_mark _ _ hmem hmark)
  rw [hc] at hname
  cases hname

theorem upper_nil (hu : u.Lawful) : u.upper [] = [] := by
  have h := congrArg List.length (hu.upper_append [] [])
  rw [List.append_nil, List.length_append] at h
  exact List.length_eq_zero_iff.mp (by omega)

theorem lower_nil (hu : u.Lawful) : u.lower [] = [] := by
  have h := congrArg List.length (hu.lower_append [] [] (by simp))
  rw [List.append_nil, List.length_append] at h
  exact List.length_eq_zero_iff.mp (by omega)

theorem lower_quote (hu : u.Lawful) (r : TableRef) : u.lower r.quote.toList = r.quote.toList := by
  rcases r.quote_cases with h | h | h
  · rw [h]
    exact lower_nil hu
  · rw [h]
    exact hu.lower_ascii _ (by decide)
  · rw [h]
    exact hu.lower_ascii _ (by decide)

theorem upper_quote (hu : u.Lawful) (r : TableRef) : u.upper r.quote.toList = r.quote.toList := by
  rcases r.quote_cases with h | h | h
  · rw [h]
    exact upper_nil hu
  · rw [h]
    exact hu.upper_ascii _ (by decide)
  · rw [h]
    exact hu.upper_ascii _ (by decide)

/-- The quotes of a name without a schema go. -/
theorem trim_bare (hu : u.Lawful) (r : TableRef) :
    trimMatches '"' (trimMatches (Char.ofNat 0x60) (r.quote.toList ++ (u.upper r.name ++ r.quote.toList))) =
      u.upper r.name := by
  have hne := hu.upper_ne_nil _ r.nonempty
  have htick : Char.ofNat 0x60 ∉ u.upper r.name := not_mem_upper hu (by decide) (by decide)
  have hdouble : '"' ∉ u.upper r.name := not_mem_upper hu (by decide) (by decide)
  have hplain : trimMatches '"' (u.upper r.name) = u.upper r.name := by
    simpa using trimMatches_name (q := []) (by simp) hne hdouble
  rcases r.quote_cases with h | h | h
  · rw [h]
    have hfirst : trimMatches (Char.ofNat 0x60) (u.upper r.name) = u.upper r.name := by
      simpa using trimMatches_name (q := []) (by simp) hne htick
    simpa [hfirst] using hplain
  · rw [h, trimMatches_name (by simp) hne htick, hplain]
  · -- the first trimming is for the other kind of quotes
    rw [h]
    have hfirst : trimMatches (Char.ofNat 0x60) (['"'] ++ (u.upper r.name ++ ['"'])) =
        ['"'] ++ (u.upper r.name ++ ['"']) := by
      simpa using trimMatches_name (q := []) (t := ['"'] ++ (u.upper r.name ++ ['"'])) (by simp) (by simp)
        (by simpa using htick)
    exact (congrArg _ hfirst).trans (trimMatches_name (by simp) hne hdouble)

/-- With a schema, the quote behind the dot stays. -/
theorem trim_qualified (hu : u.Lawful) (r : TableRef) (s : Str) :
    trimMatches '"' (trimMatches (Char.ofNat 0x60) (s ++ '.' :: (r.quote.toList ++ (u.upper r.name ++ r.quote.toList)))) =
      (s.dropWhile (· == Char.ofNat 0x60)).dropWhile (· == '"') ++ '.' :: (r.quote.toList ++ u.upper r.name) := by
  have hne := hu.upper_ne_nil _ r.nonempty
  have htick : Char.ofNat 0x60 ∉ u.upper r.name := not_mem_upper hu (by decide) (by decide)
  have hdouble : '"' ∉ u.upper r.name := not_mem_upper hu (by decide) (by decide)
  have hsecond : ∀ s inner : Str, trimMatches '"' (s ++ '.' :: (inner ++ u.upper r.name)) =
      s.dropWhile (· == '"') ++ '.' :: (inner ++ u.upper r.name) := by
    intro s inner
    simpa using trimMatches_stop '.' inner (s := s) (q := []) (by decide) (by simp) hne hdouble
  rcases r.quote_cases with h | h | h
  · rw [h, trimMatches_stop '.' _ (by decide) (by simp) hne htick, hsecond]
  · rw [h, trimMatches_stop '.' _ (by decide) (by simp) hne htick, hsecond]
  · rw [h]
    have hfirst : trimMatches (Char.ofNat 0x60) (s ++ '.' :: (['"'] ++ (u.upper r.name ++ ['"']))) =
        s.dropWhile (· == Char.ofNat 0x60) ++ '.' :: (['"'] ++ (u.upper r.name ++ ['"'])) := by
      simpa using trimMatches_stop '.' ['"'] (s := s) (q := []) (t := u.upper r.name ++ ['"']) (by decide) (by simp)
        (by simp) (by simpa using htick)
    exact (congrArg _ hfirst).trans (trimMatches_stop '.' _ (by decide) (by simp) hne hdouble)

theorem text_chars {c : Char} (hc : c ∈ r.text) : isNameChar c = true ∨ isNameQuote c = true ∨ c = '.' := by
  have hquote : ∀ d ∈ r.quote.toList, isNameQuote d = true := fun d hd => r.quoteChar d (Option.mem_toList.mp hd)
  rcases List.mem_append.mp hc with hc | hc
  · rw [qualifier] at hc
    cases hschema : r.schema with
    | none =>
      rw [hschema] at hc
      cases hc
    | some s =>
      rw [hschema] at hc
      rcases List.mem_append.mp hc with hc | hc
      · exact (r.schemaChars s hschema c hc).imp_right .inl
      · exact .inr (.inr (List.mem_singleton.mp hc))
  rcases List.mem_append.mp hc with hc | hc
  · exact .inr (.inl (hquote c hc))
  rcases List.mem_append.mp hc with hc | hc
  · exact .inl (r.nameChars c hc)
  · exact .inr (.inl (hquote c hc))

/-- Nothing in the upper case of a table ends it. -/
theorem not_stop (hu : u.Lawful) {c : Char} (hc : c ∈ u.upper r.text) (hmark : isMark c = true) :
    c ∉ nameStops ∧ isWhitespace c = false := by
  have hplain : ∀ d ∈ nameStops, isNameChar d = false ∧ isNameQuote d = false ∧ d ≠ '.' :=
    forall_of_all (by decide)
  have hchars := text_chars (hu.upper_mark _ _ hc hmark)
  constructor
  · intro hstop
    obtain ⟨hname, hquote, hdot⟩ := hplain c hstop
    simp [hname, hquote, hdot] at hchars
  · rw [Bool.eq_false_iff]
    intro hblank
    rcases hchars with hname | hquote | rfl
    · simp [isNameChar, hblank] at hname
    · rw [isNameQuote, Bool.or_eq_true, beq_iff_eq, beq_iff_eq] at hquote
      rcases hquote with rfl | rfl <;> exact absurd hblank (by decide)
    · exact absurd hblank (by decide)

theorem takeWhile_text (hu : u.Lawful) (r : TableRef) {after : Str} (hafter : ∀ c ∈ after.head?, c ∈ nameStops) :
    (u.upper r.text ++ after).takeWhile (fun c => !(nameStops.contains c)) = u.upper r.text := by
  rw [List.takeWhile_append_of_pos]
  · cases after with
    | nil => rw [List.takeWhile_nil, List.append_nil]
    | cons c after =>
      rw [List.takeWhile_cons_of_neg, List.append_nil]
      simpa using hafter c rfl
  · intro c hc
    rw [Bool.not_eq_true', Bool.eq_false_iff]
    intro hstop
    have hstop := List.contains_iff_mem.mp hstop
    have hmarks : ∀ d ∈ nameStops, isMark d = true := forall_of_all (by decide)
    exact (not_stop hu hc (hmarks c hstop)).1 hstop

theorem upper_text (hu : u.Lawful) (r : TableRef) :
    u.upper r.text = u.upper r.qualifier ++ (r.quote.toList ++ (u.upper r.name ++ r.quote.toList)) := by
  rw [text, hu.upper_append, hu.upper_append, hu.upper_append, upper_quote hu]

/-- The extraction reads the name, whatever ends it. -/
theorem tableName_text (hu : u.Lawful) (r : TableRef) (hsigma : r.schema ≠ none → 'Σ' ∉ u.upper r.text) {after : Str}
    (hafter : ∀ c ∈ after.head?, c ∈ nameStops) : tableName u (u.upper r.text ++ after) = r.seen u := by
  have hdot : '.' ∉ u.lower (u.upper r.name) := by
    intro hmem
    exact not_mem_upper hu (by decide) (by decide) (hu.lower_mark _ _ hmem (by decide))
  have hword := takeWhile_text hu r hafter
  rw [nameStops] at hword
  rw [tableName, hword]
  rw [upper_text hu] at hsigma ⊢
  unfold seen innerQuote qualifier at *
  cases hschema : r.schema with
  | none =>
    simp only [Option.elim_none, upper_nil hu, List.nil_append, trim_bare hu]
    exact behind_none hdot
  | some s =>
    have hupper : u.upper (s ++ ['.']) = u.upper s ++ ['.'] := by
      rw [hu.upper_append, hu.upper_ascii _ (by decide)]
      rfl
    simp only [hschema, Option.elim_some, hupper, List.append_assoc, List.singleton_append] at hsigma ⊢
    have hsigma := hsigma (by simp)
    rw [trim_qualified hu]
    generalize hs' : ((u.upper s).dropWhile (· == Char.ofNat 0x60)).dropWhile (· == '"') = s'
    have hsub : ∀ c ∈ s', c ∈ u.upper s := by
      intro c hc
      rw [← hs'] at hc
      exact (List.dropWhile_sublist _).subset ((List.dropWhile_sublist _).subset hc)
    have hquote : '.' ∉ r.quote.toList := by
      rcases r.quote_cases with h | h | h <;> rw [h] <;> decide
    -- without a sigma the lower case is that of the parts, and a dot separates them before and after
    have hlower : u.lower (s' ++ '.' :: (r.quote.toList ++ u.upper r.name)) =
        u.lower s' ++ '.' :: (r.quote.toList ++ u.lower (u.upper r.name)) := by
      have hs' : 'Σ' ∉ s' := fun hmem => hsigma (List.mem_append_left _ (hsub _ hmem))
      have hinner : 'Σ' ∉ r.quote.toList ++ u.upper r.name := by
        intro hmem
        refine hsigma (List.mem_append_right _ (.tail _ ?_))
        rw [← List.append_assoc]
        exact List.mem_append_left _ hmem
      have hdotted : 'Σ' ∉ ['.'] ++ (r.quote.toList ++ u.upper r.name) :=
        fun hmem => (List.mem_append.mp hmem).elim (by decide) hinner
      have hall : 'Σ' ∉ s' ++ (['.'] ++ (r.quote.toList ++ u.upper r.name)) :=
        fun hmem => (List.mem_append.mp hmem).elim hs' hdotted
      calc u.lower (s' ++ (['.'] ++ (r.quote.toList ++ u.upper r.name)))
          = u.lower s' ++ (u.lower ['.'] ++ u.lower (r.quote.toList ++ u.upper r.name)) := by
            rw [hu.lower_append _ _ hall, hu.lower_append _ _ hdotted]
        _ = u.lower s' ++ (['.'] ++ (r.quote.toList ++ u.lower (u.upper r.name))) := by
            rw [hu.lower_append _ _ hinner, lower_quote hu, hu.lower_ascii _ (by decide)]
            rfl
    rw [hlower]
    exact behind_last (by simp [hquote, hdot])

end TableRef

/-! ### Statements -/

/-- Where every character has one upper case, it is found in its place. -/
theorem upper_of_single (hu : u.Lawful) (f : Char → Char) (h : ∀ c ∈ s, u.upper [c] = [f c]) : u.upper s = s.map f := by
  induction s with
  | nil => exact TableRef.upper_nil hu
  | cons c rest ih =>
    obtain ⟨hc, hrest⟩ := List.forall_mem_cons.mp h
    have hcons : u.upper ([c] ++ rest) = u.upper [c] ++ u.upper rest := hu.upper_append _ _
    rw [hc, ih hrest] at hcons
    exact hcons

/-- A keyword in any case is in upper case in the upper case of the text. -/
theorem upper_keyword (hu : u.Lawful) {keyword : Str} (h : toAsciiUppercase keyword ∈ tableWords) :
    u.upper (keyword ++ [' ']) = toAsciiUppercase keyword ++ [' '] := by
  have hascii : ∀ w ∈ tableWords, (w.all fun k => decide (k.toNat < 128)) = true := forall_of_all (by decide)
  have hkeyword : u.upper keyword = keyword.map asciiUpper := by
    refine upper_of_single hu _ fun c hc => hu.upper_ascii c (ascii_of_asciiUpper ?_)
    exact of_decide_eq_true (List.all_eq_true.mp (hascii _ h) _ (List.mem_map_of_mem hc))
  rw [hu.upper_append, hkeyword, hu.upper_ascii _ (by decide)]
  rfl

theorem upper_blanks (hu : u.Lawful) (h : ∀ c ∈ s, isWhitespace c = true) : u.upper s = s := by
  rw [upper_of_single hu id fun c hc => hu.upper_blank c (h c hc), List.map_id]

/-- What ends a name ends its upper case. -/
theorem upper_stop (hu : u.Lawful) {after : Str} (h : ∀ c ∈ after.head?, c ∈ nameStops) :
    ∀ c ∈ (u.upper after).head?, c ∈ nameStops := by
  cases after with
  | nil =>
    rw [TableRef.upper_nil hu]
    exact nofun
  | cons c after =>
    have hstop := h c rfl
    have hsame : ∀ d ∈ nameStops, d.toNat < 128 ∧ asciiUpper d = d := forall_of_all (by decide)
    obtain ⟨hascii, hupper⟩ := hsame c hstop
    have hcons : u.upper ([c] ++ after) = u.upper [c] ++ u.upper after := hu.upper_append _ _
    rw [hu.upper_ascii c hascii, hupper] at hcons
    rw [List.singleton_append] at hcons
    rw [hcons]
    rintro d ⟨⟩
    exact hstop

/-- Every keyword is looked for with its space, and its first character does not come back. -/
theorem keyword_of_word {word : Str} (h : word ∈ tableWords) :
    ∃ keyword ∈ tableKeywords, ∃ k rest, keyword.toList = k :: rest ∧ word ++ [' '] = k :: rest ∧ k ∉ rest := by
  simp only [tableWords, List.mem_cons, List.not_mem_nil, or_false] at h
  rcases h with rfl | rfl | rfl | rfl | rfl
  · exact ⟨"FROM ", by decide, 'F', "ROM ".toList, rfl, rfl, by decide⟩
  · exact ⟨"JOIN ", by decide, 'J', "OIN ".toList, rfl, rfl, by decide⟩
  · exact ⟨"INTO ", by decide, 'I', "NTO ".toList, rfl, rfl, by decide⟩
  · exact ⟨"UPDATE ", by decide, 'U', "PDATE ".toList, rfl, rfl, by decide⟩
  · exact ⟨"TABLE ", by decide, 'T', "ABLE ".toList, rfl, rfl, by decide⟩

/-- A plainly named table is extracted. -/
theorem MentionsPlainly.extracted (hu : u.Lawful) {sql : Str} {r : TableRef} (h : MentionsPlainly sql r)
    (hsigma : r.schema ≠ none → 'Σ' ∉ u.upper r.text) : r.seen u ∈ extractTablesSimple u sql := by
  obtain ⟨before, keyword, blanks, after, rfl, hkeyword, hblanks, hafter⟩ := h
  obtain ⟨kw, hkw, k, rest, hlist, hword, hk⟩ := keyword_of_word hkeyword
  have hupper : u.upper (before ++ (keyword ++ ' ' :: (blanks ++ (r.text ++ after)))) =
      u.upper before ++ (k :: rest ++ (blanks ++ (u.upper r.text ++ u.upper after))) := by
    have hsql : before ++ (keyword ++ ' ' :: (blanks ++ (r.text ++ after))) =
        before ++ ((keyword ++ [' ']) ++ (blanks ++ (r.text ++ after))) := by simp
    rw [hsql, hu.upper_append, hu.upper_append, upper_keyword hu hkeyword, hword, hu.upper_append,
      upper_blanks hu hblanks, hu.upper_append]
  have htrim : trimStart (blanks ++ (u.upper r.text ++ u.upper after)) = u.upper r.text ++ u.upper after := by
    have hblank : trimStart blanks = [] := List.dropWhile_eq_nil_iff.mpr hblanks
    have htext : r.text ≠ [] := by simp [TableRef.text, r.nonempty]
    obtain ⟨c, rest', hcons⟩ := List.exists_cons_of_ne_nil (hu.upper_ne_nil _ htext)
    have hc : isWhitespace c = false := by
      rw [Bool.eq_false_iff]
      intro hspace
      have hmark : isMark c = true := by rw [isMark, hspace, Bool.or_true]
      have hmem : c ∈ u.upper r.text := by
        rw [hcons]
        exact .head _
      exact Bool.false_ne_true ((TableRef.not_stop hu hmem hmark).2.symm.trans hspace)
    rw [trimStart_append_of_blank hblank, hcons, List.cons_append, trimStart, List.dropWhile_cons_of_neg (by simp [hc])]
  have hname : tableName u (trimStart (blanks ++ (u.upper r.text ++ u.upper after))) = r.seen u := by
    rw [htrim]
    exact r.tableName_text hu hsigma (upper_stop hu hafter)
  have hseen : tableName u (trimStart (blanks ++ (u.upper r.text ++ u.upper after))) ≠ [] := by
    rw [hname]
    intro hnil
    exact hu.lower_ne_nil _ (hu.upper_ne_nil _ r.nonempty) (List.append_eq_nil_iff.mp hnil).2
  refine mem_extractTablesSimple.mpr ⟨kw, hkw, ?_⟩
  rw [hlist, hupper, ← hname]
  exact mem_tablesAfter hk hseen (Nat.lt_succ_self _)

end Extraction

/-! ## A lawful case mapping -/

section Ascii

variable {c k : Char} {f : Char → Char}

/-- A mapping of single characters, with a table of exceptions. -/
def mapChar (special : List (Nat × List Nat)) (f : Char → Char) (c : Char) : Str :=
  match special.lookup c.toNat with
  | some ns => ns.map Char.ofNat
  | none => [f c]

theorem mapChar_mark (special : List (Nat × List Nat))
    (htable : ∀ e ∈ special, ∀ n ∈ e.2, isMark (Char.ofNat n) = false)
    (hf : isMark (f c) = true → f c = c) (hk : k ∈ mapChar special f c) (hmark : isMark k = true) : k = c := by
  rw [mapChar] at hk
  split at hk
  · rename_i ns hlookup
    obtain ⟨n, hn, rfl⟩ := List.mem_map.mp hk
    rw [htable _ (mem_of_lookup hlookup) n hn] at hmark
    cases hmark
  · obtain rfl := List.mem_singleton.mp hk
    exact hf hmark

theorem mapChar_ne_nil {special : List (Nat × List Nat)} (htable : ∀ e ∈ special, e.2 ≠ []) :
    mapChar special f c ≠ [] := by
  rw [mapChar]
  split
  · rename_i ns hlookup
    simpa using htable _ (mem_of_lookup hlookup)
  · simp

theorem flatMap_mapChar_ne_nil (special : List (Nat × List Nat)) (htable : ∀ e ∈ special, e.2 ≠ []) {s : Str}
    (hs : s ≠ []) : s.flatMap (mapChar special f) ≠ [] := by
  obtain ⟨c, rest, rfl⟩ := List.exists_cons_of_ne_nil hs
  exact fun hnil => mapChar_ne_nil htable (List.append_eq_nil_iff.mp hnil).1

theorem asciiUpper_mark (hmark : isMark (asciiUpper c) = true) : asciiUpper c = c := by
  refine asciiUpper_of_not_lower fun hlower => ?_
  have hletters : ∀ n < 123, 97 ≤ n → isMark (Char.ofNat (n - 32)) = false := by decide
  have hlow : 97 ≤ c.toNat := hlower.1
  have hhigh : c.toNat ≤ 122 := hlower.2
  rw [asciiUpper, if_pos hlower, hletters _ (by omega) hlow] at hmark
  cases hmark

theorem asciiLower_mark (hmark : isMark (asciiLower c) = true) : asciiLower c = c := by
  refine if_neg fun hupper => ?_
  have hletters : ∀ n < 91, 65 ≤ n → isMark (Char.ofNat (n + 32)) = false := by decide
  have hlow : 65 ≤ c.toNat := hupper.1
  have hhigh : c.toNat ≤ 90 := hupper.2
  rw [asciiLower, if_pos hupper, hletters _ (by omega) hlow] at hmark
  cases hmark

/-- The case mappings as far as ASCII sees them are lawful. -/
theorem Casing.ascii_lawful : Casing.ascii.Lawful where
  upper_append _ _ := List.flatMap_append
  upper_ascii c hc := by
    have hsingle : toUppercase [c] = upperChar c := List.append_nil _
    exact hsingle.trans (upperChar_of_ascii hc)
  upper_blank c hc := by
    have hsingle : toUppercase [c] = upperChar c := List.append_nil _
    exact hsingle.trans (upperChar_of_blank hc)
  upper_mark s k hk hmark := by
    obtain ⟨c, hc, hk⟩ := List.mem_flatMap.mp hk
    obtain rfl : k = c := mapChar_mark upperSpecial (by decide) asciiUpper_mark hk hmark
    exact hc
  upper_ne_nil _ hs := flatMap_mapChar_ne_nil upperSpecial (by decide) hs
  lower_append _ _ _ := List.flatMap_append
  lower_ascii c hc := by
    have hnone : ∀ n < 128, lowerSpecial.lookup n = none := by decide
    have hsingle : toLowercase [c] = lowerChar c := List.append_nil _
    rw [lowerChar, hnone _ hc] at hsingle
    exact hsingle
  lower_mark s k hk hmark := by
    obtain ⟨c, hc, hk⟩ := List.mem_flatMap.mp hk
    obtain rfl : k = c := mapChar_mark lowerSpecial (by decide) asciiLower_mark hk hmark
    exact hc
  lower_ne_nil _ hs := flatMap_mapChar_ne_nil lowerSpecial (by decide) hs

end Ascii

/-! ## Statements with a common table -/

/-- **Invalidation sees what was recorded**: two statements that name one table plainly, in any case, have a table in
common; quotes behind the dot of a schema must be the same. -/
theorem tables_meet (u : Casing) (hu : u.Lawful) (q w : Str) (r r' : TableRef) (hq : MentionsPlainly q r)
    (hw : MentionsPlainly w r') (hname : u.upper r.name = u.upper r'.name) (hquote : r.innerQuote = r'.innerQuote)
    (hsigma : r.schema ≠ none → 'Σ' ∉ u.upper r.text) (hsigma' : r'.schema ≠ none → 'Σ' ∉ u.upper r'.text) :
    ∃ t ∈ extractTablesSimple u q, t ∈ extractTablesSimple u w := by
  refine ⟨r.seen u, hq.extracted hu hsigma, ?_⟩
  have hsame : r.seen u = r'.seen u := by rw [TableRef.seen, TableRef.seen, hquote, hname]
  rw [hsame]
  exact hw.extracted hu hsigma'

/-- A table in a schema, and the same in quotes and capitals. -/
theorem tables_meet_quoted :
    ∃ t ∈ extractTablesSimple .ascii "select a from shop.Orders o".toList,
      t ∈ extractTablesSimple .ascii "INSERT INTO  \"ORDERS\" (a) VALUES (1)".toList :=
  tables_meet .ascii Casing.ascii_lawful _ _
    ⟨some "shop".toList, none, "Orders".toList, fun _ hs => Option.some.inj hs ▸ forall_of_all (by decide), by simp,
      by decide, forall_of_all (by decide)⟩
    ⟨none, some '"', "ORDERS".toList, by simp, fun _ hq => Option.some.inj hq ▸ rfl, by decide,
      forall_of_all (by decide)⟩
    ⟨"select a ".toList, "from".toList, [], " o".toList, rfl, by decide, by simp, fun _ hc => Option.some.inj hc ▸ .head _⟩
    ⟨"INSERT ".toList, "INTO".toList, [' '], " (a) VALUES (1)".toList, rfl, by decide, forall_of_all (by decide),
      fun _ hc => Option.some.inj hc ▸ .head _⟩
    (by decide +kernel) rfl (by decide +kernel) (by decide +kernel)

/-- Statements that write a table. -/
def isTableWrite (w : Str) : Bool :=
  ["INSERT", "UPDATE", "DELETE", "REPLACE", "TRUNCATE", "ALTER"].any (startsWithKw w)

/-- Behind a tab, a table is not seen. -/
theorem table_behind_tab : ¬∀ (u : Casing) (q w : Str) (r r' : TableRef), u.Lawful → startsWithKw q "SELECT" = true →
    isTableWrite w = true → Mentions q r → Mentions w r' → r.name = r'.name →
    ∃ t ∈ extractTablesSimple u q, t ∈ extractTablesSimple u w := by
  intro h
  let t : TableRef := ⟨none, none, ['t'], by simp, by simp, by simp, forall_of_all (by decide)⟩
  have hq : Mentions "SELECT * FROM\tt".toList t :=
    ⟨"SELECT * ".toList, "FROM".toList, ['\t'], [], [], rfl, by decide, by decide, forall_of_all (by decide), by simp⟩
  have hw : Mentions "UPDATE t SET a = 1".toList t :=
    ⟨[], "UPDATE".toList, [' '], [], " SET a = 1".toList, rfl, by decide, by decide, forall_of_all (by decide),
      fun _ hc => Option.some.inj hc ▸ rfl⟩
  obtain ⟨x, hx, -⟩ := h .ascii _ _ t t Casing.ascii_lawful (by decide) (by decide) hq hw rfl
  have hnone : extractTablesSimple .ascii "SELECT * FROM\tt".toList = [] := by decide +kernel
  rw [hnone] at hx
  cases hx

end TurbineProxy
