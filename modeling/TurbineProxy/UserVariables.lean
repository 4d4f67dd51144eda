import TurbineProxy.SqlBoundaries
import TurbineProxy.SessionVars

/-!
# Statements that assign user variables

A session that assigns a user variable must stay with its connection. `needs_hard_pin` finds the assignments by the
characters `@`, `@@` and `:=` anywhere in the text. What counts as one is said here by the lexemes that MySQL reads
(`AssignsUserVar`): a name directly behind a single `@`, and an assignment of it, in a SET or a SELECT.
-/

namespace TurbineProxy

open Str

/-! ## Assignments -/

/-- What comes behind the name of a user variable. The name has no blanks, but it may have dots. -/
def behindName : List Lexeme → Option (List Lexeme)
  | .quoted _ :: ls => some ls
  | ls =>
    let part : Lexeme → Bool := fun l => match l with | .word _ => true | l => l == .sign '.'
    if ls.takeWhile part = [] then none else some (ls.dropWhile part)

/-- The next sign is `:=`, or `=` where that is an assignment. -/
def assignsNext (target : Bool) (ls : List Lexeme) : Bool :=
  match ls.dropWhile fun l => l.token.isNone with
  | .sign ':' :: .sign '=' :: _ => true
  | .sign '=' :: _ => target
  | _ => false

/-- What is known of a statement at one of its lexemes. -/
structure VarScan where
  /-- how many parentheses are open -/
  depth : Int
  /-- the lexeme before -/
  prev : Option Lexeme
  /-- the token before -/
  before : Option Token

namespace VarScan

/-- At the beginning. -/
def start : VarScan := ⟨0, none, none⟩

variable (p : VarScan)

/-- What is known behind a lexeme: how many parentheses are open, the lexeme itself, and the last token. -/
def next (l : Lexeme) : VarScan where
  depth := p.depth + if l = .sign '(' then 1 else if l = .sign ')' then -1 else 0
  prev := some l
  before := l.token.or p.before

/-- In a SET, an assignment of the statement itself begins here. -/
def isTarget : Bool :=
  p.depth == 0 && (p.before == some (.sign ',') || p.before.any fun t => t.keyword == "SET".toList)

/-- The `@` at this place begins a user variable that gets a value: by an assignment, or by INTO. -/
def assigned (set : Bool) (ls : List Lexeme) : Bool :=
  p.prev != some (.sign '@') &&
    (behindName ls).any fun rest =>
      assignsNext (set && p.isTarget) rest || !set && p.before.any fun t => t.keyword == "INTO".toList

end VarScan

/-- Somewhere in the lexemes a user variable gets a value. -/
def assignsVar (set : Bool) : VarScan → List Lexeme → Bool
  | _, [] => false
  | p, l :: ls => l == .sign '@' && p.assigned set ls || assignsVar set (p.next l) ls

/-! ## Statements -/

/-- The first of these keywords outside of all parentheses. -/
def outerKeyword (keywords : List Str) : Int → List Token → Option Str
  | _, [] => none
  | depth, t :: ts =>
    if depth = 0 ∧ t.keyword ∈ keywords then some t.keyword
    else outerKeyword keywords (depth + if t = .sign '(' then 1 else if t = .sign ')' then -1 else 0) ts

/-- The statement is a SET. -/
def IsSet (ts : List Token) : Prop := ts.head?.map Token.keyword = some "SET".toList

/-- The statement is a SELECT, perhaps in parentheses, perhaps with common table expressions before it. -/
def IsSelectText (ts : List Token) : Prop :=
  let ts := ts.dropWhile (· == .sign '(')
  ts.head?.map Token.keyword = some "SELECT".toList ∨
    ts.head?.map Token.keyword = some "WITH".toList ∧
      outerKeyword ["SELECT".toList, "UPDATE".toList, "DELETE".toList] 0 ts = some "SELECT".toList

/-- The text is a SET or a SELECT that assigns a user variable. -/
def AssignsUserVar (version : Nat) (sql : Str) : Prop :=
  IsSet (sqlTokens (.mysql version) sql) ∧ assignsVar true .start (lexemes (.mysql version) sql).1 = true ∨
    IsSelectText (sqlTokens (.mysql version) sql) ∧ assignsVar false .start (lexemes (.mysql version) sql).1 = true

instance (ts : List Token) : Decidable (IsSet ts) := inferInstanceAs (Decidable (_ = _))

instance (ts : List Token) : Decidable (IsSelectText ts) := inferInstanceAs (Decidable (_ ∨ _ ∧ _))

instance (version : Nat) (sql : Str) : Decidable (AssignsUserVar version sql) :=
  inferInstanceAs (Decidable (_ ∧ _ ∨ _ ∧ _))

example : AssignsUserVar 80036 "/* x */ set @@sql_mode = '', @`a b` := 1".toList := by decide +kernel
example : AssignsUserVar 80036 "WITH c AS (SELECT 1) SELECT * FROM c INTO @v.w".toList := by decide +kernel
example : ¬AssignsUserVar 80036 "SET @@a = (@b = 1), c = '@d := 1'".toList := by decide +kernel

/-- A statement pins the session, and it is not taken for one to be replayed. -/
def PinsSession (sql : Str) : Prop := needsHardPin sql = true ∧ isReplayableSessionStmt sql = false

/-- The layouts in which an assignment is found: in a text that begins with SET there is no `@@`, and in any other one
there is a `:=`. -/
def PinSafe (sql : Str) : Prop :=
  if startsWith (toUppercase (trimStart sql)) "SET" then contains (toUppercase (trimStart sql)) "@@" = false
  else contains (toUppercase (trimStart sql)) ":=" = true

/-! ## What the text shows -/

theorem at_of_assignsVar {set : Bool} {p : VarScan} {ls : List Lexeme} (h : assignsVar set p ls = true) :
    .sign '@' ∈ ls := by
  induction ls generalizing p with
  | nil => cases h
  | cons l ls ih =>
    rw [assignsVar, Bool.or_eq_true, Bool.and_eq_true, beq_iff_eq] at h
    rcases h with ⟨rfl, -⟩ | h
    · exact .head _
    · exact .tail _ (ih h)

/-- Before the first token there are blanks, and perhaps a comment. -/
theorem Lexes.first {version : Nat} {inside last : Bool} {sql : Str} {ls : List Lexeme} {t : Token} {ts : List Token}
    (h : Lexes (.mysql version) inside sql ls last) (hts : ls.filterMap Lexeme.token = t :: ts) :
    ∃ blanks c rest, sql = blanks ++ c :: rest ∧ (∀ k ∈ blanks, isWhitespace k = true) ∧
      (c ∈ "#-/*".toList ∨ t.Begins c) := by
  induction h with
  | nil inside => cases hts
  | @cons inside inside' last c rest r l ls head tail ih =>
    rw [readLexeme] at head
    split at head
    · rename_i hblank
      cases head
      obtain ⟨blanks, c', rest', rfl, hblanks, hc'⟩ := ih hts
      refine ⟨c :: blanks, c', rest', rfl, fun k hk => ?_, hc'⟩
      rcases List.mem_cons.mp hk with rfl | hk
      · exact isWhitespace_of_sqlBlank hblank
      · exact hblanks k hk
    refine ⟨[], c, rest, rfl, List.forall_mem_nil _, ?_⟩
    split at head
    · rename_i hline
      simp only [SqlDialect.opensLine, Bool.or_eq_true, Bool.and_eq_true, beq_iff_eq] at hline
      rcases hline with rfl | hline
      · exact .inl (.head _)
      · exact .inl (hline.1.1 ▸ .tail _ (.head _))
    split at head
    · rename_i hblock
      exact .inl (hblock.1 ▸ .tail _ (.tail _ (.head _)))
    split at head
    · rename_i hend
      exact .inl (hend.2.1 ▸ .tail _ (.tail _ (.tail _ (.head _))))
    split at head
    · split at head
      · cases head
        cases hts
        exact .inr trivial
      · cases head
        cases tail
        cases hts
    split at head
    · cases head
      cases hts
      exact .inr ⟨_, rfl⟩
    · cases head
      cases hts
      exact .inr rfl

section Texts

variable {version : Nat} {sql : Str}

/-- The first token of a statement that assigns a user variable. -/
theorem AssignsUserVar.first (h : AssignsUserVar version sql) :
    ∃ t ts, sqlTokens (.mysql version) sql = t :: ts ∧
      ∀ c, t.Begins c → c = '(' ∨ asciiUpper c ∈ ['S', 'W'] := by
  have hword {t : Token} {keyword : Str} (ht : t.keyword = keyword) {k : Char} (hk : keyword.head? = some k) :
      ∀ c, t.Begins c → asciiUpper c = k := by
    intro c hc
    cases t with
    | word w =>
      obtain ⟨w', rfl⟩ := hc
      rw [← ht] at hk
      exact Option.some.inj hk
    | literal | sign =>
      subst ht
      cases hk
  cases htokens : sqlTokens (.mysql version) sql with
  | nil =>
    rcases h with ⟨hset, -⟩ | ⟨hselect, -⟩
    · rw [IsSet, htokens] at hset
      cases hset
    · rw [IsSelectText, htokens] at hselect
      rcases hselect with h | ⟨h, -⟩ <;> cases h
  | cons t ts =>
    refine ⟨t, ts, rfl, ?_⟩
    rcases h with ⟨hset, -⟩ | ⟨hselect, -⟩
    · rw [IsSet, htokens] at hset
      intro c hc
      rw [hword (Option.some.inj hset) rfl c hc]
      exact .inr (.head _)
    · rw [IsSelectText, htokens] at hselect
      by_cases hparen : t = .sign '('
      · subst hparen
        exact fun c hc => .inl hc.symm
      · rw [List.dropWhile_cons_of_neg (by simpa using hparen)] at hselect
        intro c hc
        rcases hselect with h | ⟨h, -⟩
        · rw [hword (Option.some.inj h) rfl c hc]
          exact .inr (.head _)
        · rw [hword (Option.some.inj h) rfl c hc]
          exact .inr (.tail _ (.head _))

/-- It does not begin like LOCK TABLES. -/
theorem AssignsUserVar.not_lock (h : AssignsUserVar version sql) :
    startsWith (toUppercase (trimStart sql)) "LOCK TABLES" = false := by
  obtain ⟨t, ts, htokens, hbegins⟩ := h.first
  obtain ⟨blanks, c, rest, hsql, hblanks, hc⟩ := (lexemes_lexes _ sql).first htokens
  have hhead : c.toNat < 128 ∧ isWhitespace c = false ∧ asciiUpper c ≠ 'L' := by
    have hsigns : ∀ c ∈ "#-/*(".toList, c.toNat < 128 ∧ isWhitespace c = false ∧ asciiUpper c ≠ 'L' :=
      forall_of_all (by decide)
    rcases hc with hc | hc
    · exact hsigns c (List.mem_append_left ['('] hc)
    rcases hbegins c hc with rfl | hupper
    · exact hsigns '(' (by decide)
    have hletters : ∀ k ∈ ['S', 'W'], k.toNat < 128 ∧ isWhitespace k = false ∧ k ≠ 'L' := forall_of_all (by decide)
    obtain ⟨hascii, hblank, hne⟩ := hletters _ hupper
    refine ⟨ascii_of_asciiUpper hascii, Bool.eq_false_iff.mpr fun hwhite => ?_, hne⟩
    rw [asciiUpper_of_blank hwhite, hwhite] at hblank
    cases hblank
  have htrim : trimStart sql = c :: rest := by
    rw [hsql, trimStart, List.dropWhile_append_of_pos hblanks, List.dropWhile_cons_of_neg (by simp [hhead.2.1])]
  rw [htrim, Bool.eq_false_iff]
  intro hlock
  have hupper : toUppercase (c :: rest) = asciiUpper c :: toUppercase rest := by
    rw [toUppercase, List.flatMap_cons, upperChar_of_ascii hhead.1]
    rfl
  rw [hupper, startsWith_iff] at hlock
  exact hhead.2.2 (List.cons_prefix_cons.mp hlock).1.symm

/-- Its text shows an `@`. -/
theorem AssignsUserVar.contains_at (h : AssignsUserVar version sql) :
    contains (toUppercase (trimStart sql)) "@" = true := by
  have hlexeme : .sign '@' ∈ (lexemes (.mysql version) sql).1 :=
    h.elim (fun h => at_of_assignsVar h.2) fun h => at_of_assignsVar h.2
  have hmem : '@' ∈ sql := by
    rw [← (lexemes_lexes (.mysql version) sql).text]
    exact List.mem_flatMap.mpr ⟨_, hlexeme, .head _⟩
  have htrim : '@' ∈ trimStart sql := by
    rw [← List.takeWhile_append_dropWhile (p := isWhitespace) (l := sql)] at hmem
    refine (List.mem_append.mp hmem).resolve_left fun hblank => ?_
    exact absurd (List.mem_takeWhile_imp hblank) (by decide)
  rw [contains_iff]
  exact (List.singleton_infix_iff _ _).mpr (List.mem_flatMap.mpr ⟨'@', htrim, by decide⟩)

end Texts

/-- **PinsSession.** An assignment of a user variable pins the session exactly if the text has one of the two layouts. -/
theorem pins_iff (version : Nat) (sql : Str) (h : AssignsUserVar version sql) : PinsSession sql ↔ PinSafe sql := by
  have hat := h.contains_at
  have hlock := h.not_lock
  rw [PinsSession, PinSafe]
  simp only [needsHardPin, isReplayableSessionStmt]
  generalize toUppercase (trimStart sql) = upper at hat hlock
  rw [hat, hlock]
  cases startsWith upper "SET" <;> cases contains upper "@@" <;> cases contains upper ":=" <;> simp

theorem pins_iff_select : PinsSession "select 1, @a:=2".toList := by
  refine (pins_iff 80036 _ (by decide +kernel)).mpr ?_
  rw [PinSafe, if_neg (by decide +kernel)]
  decide +kernel

/-- An assignment next to one of a system variable is replayed on other connections. -/
theorem mixed_assignment_replayed :
    ¬∀ (version : Nat) (sql : Str), AssignsUserVar version sql → PinsSession sql := by
  intro h
  have hassigns : AssignsUserVar 80036 "SET @a = 1, @@session.sql_mode = ''".toList := by decide +kernel
  have hreplayed : isReplayableSessionStmt "SET @a = 1, @@session.sql_mode = ''".toList = true := by decide +kernel
  cases hreplayed.symm.trans (h _ _ hassigns).2

end TurbineProxy
