import TurbineProxy.LeadingComments
import Mathlib.Data.List.Infix

/-!
# Reads that lock

`SELECT … FOR UPDATE` and its kin are writes for the purposes of routing, and their answers are not cached. The
tests for it search the text for `FOR UPDATE` and `FOR SHARE`, with one space. What counts as a locking clause is
said here by tokens (`LockingSelect`): the words may be apart by blanks and comments, and there is a third clause.
-/

namespace TurbineProxy

open Str

/-! ## Tokens -/

/-- A token of an SQL text. -/
inductive Token : Type where
  /-- a keyword, a name or a number -/
  | word (w : Str)
  /-- a text in quotes -/
  | literal
  /-- any other character -/
  | sign (c : Char)
  deriving DecidableEq

/-- Blanks between tokens. -/
def isSqlBlank (c : Char) : Bool := c == ' ' || (9 ≤ c.toNat && c.toNat ≤ 13)

/-- Characters of a word. -/
def isLexWordChar (c : Char) : Bool := c.isAlphanum || c == '_' || c == '$' || 128 ≤ c.toNat

/-- Characters that open a text in quotes and close it. -/
def isQuote (c : Char) : Bool := c == Char.ofNat 0x27 || c == '"' || c == Char.ofNat 0x60

/-- What follows the closing quote. A backslash may escape a character. -/
def afterQuote (escapes : Bool) (q : Char) : Str → Option Str
  | [] => none
  | [c] => if c = q then some [] else none
  | c :: d :: rest =>
    if c = q then some (d :: rest)
    else if escapes && c == '\\' then afterQuote escapes q rest
    else afterQuote escapes q (d :: rest)

/-- The tokens of a text. Every round takes one character at least. -/
def lexLoop (escapes : Bool) : Nat → Str → List Token
  | 0, _ => []
  | _ + 1, [] => []
  | n + 1, c :: rest =>
    if isSqlBlank c then lexLoop escapes n rest
    else if startsWith (c :: rest) "/*" then
      match splitFirst "*/".toList (rest.drop 1) with
      | some (_, after) => lexLoop escapes n after
      | none => []
    else if startsWith (c :: rest) "--" then
      match splitFirst "\n".toList (rest.drop 1) with
      | some (_, after) => lexLoop escapes n after
      | none => []
    else if isQuote c then
      match afterQuote escapes c rest with
      | some after => .literal :: lexLoop escapes n after
      | none => []
    else if isLexWordChar c then
      .word ((c :: rest).takeWhile isLexWordChar) :: lexLoop escapes n ((c :: rest).dropWhile isLexWordChar)
    else .sign c :: lexLoop escapes n rest

/-- The tokens of a text. -/
def lex (escapes : Bool) (sql : Str) : List Token := lexLoop escapes (sql.length + 1) sql

/-- What keywords are compared with. -/
def Token.keyword : Token → Str
  | .word w => toAsciiUppercase w
  | _ => []

/-- The clauses that lock. -/
def lockingClauses : List (List Str) :=
  [["FOR".toList, "UPDATE".toList], ["FOR".toList, "SHARE".toList],
    ["LOCK".toList, "IN".toList, "SHARE".toList, "MODE".toList]]

/-- The text is a `SELECT`, perhaps in parentheses, with a clause that locks. -/
def LockingSelect (escapes : Bool) (sql : Str) : Prop :=
  ((lex escapes sql).dropWhile (· == .sign '(')).head?.map Token.keyword = some "SELECT".toList ∧
    ∃ clause ∈ lockingClauses, ∃ tail ∈ ((lex escapes sql).map Token.keyword).tails, clause <+: tail

instance (escapes : Bool) (sql : Str) : Decidable (LockingSelect escapes sql) := inferInstanceAs (Decidable (_ ∧ _))

example : LockingSelect true "(select 'for' /* x */ FROM t For\n-- y\nupDATE)".toList := by decide +kernel
example : ¬LockingSelect true "SELECT 'x' FROM t -- FOR UPDATE".toList := by decide +kernel

/-! ## The beginning of a text -/

/-- A token begins with this character. -/
def Token.Begins (c : Char) : Token → Prop
  | .word w => ∃ w', w = c :: w'
  | .literal => True
  | .sign d => d = c

section Lexer

variable {escapes : Bool} {sql : Str}

theorem isWhitespace_of_sqlBlank {c : Char} (h : isSqlBlank c = true) : isWhitespace c = true := by
  rw [isSqlBlank, Bool.or_eq_true, beq_iff_eq] at h
  rcases h with rfl | h
  · rfl
  · simp [isWhitespace, h]

/-- Before the first token there are blanks and comments. -/
theorem lex_first {n : Nat} {t : Token} {ts : List Token} (h : lexLoop escapes n sql = t :: ts) :
    ∃ l c body, sql = leadingText l ++ c :: body ∧ t.Begins c := by
  induction n generalizing sql with
  | zero => cases h
  | succ n ih =>
    cases sql with
    | nil => cases h
    | cons c rest =>
      rw [lexLoop] at h
      split at h
      · rename_i hblank
        obtain ⟨l, d, body, rfl, hbegins⟩ := ih h
        exact ⟨.space c (isWhitespace_of_sqlBlank hblank) :: l, d, body, rfl, hbegins⟩
      split at h
      · rename_i hblock
        obtain ⟨rest', hrest⟩ := startsWith_iff.mp hblock
        obtain ⟨rfl, rfl⟩ : c = '/' ∧ rest = '*' :: rest' := by simpa [eq_comm] using hrest
        split at h
        · rename_i comment after hsplit
          obtain ⟨l, d, body, rfl, hbegins⟩ := ih h
          have hbody : ¬"*/".toList <:+: comment := not_infix_of_splitFirst (by simp) hsplit
          refine ⟨.block comment hbody :: l, d, body, ?_, hbegins⟩
          have hrest : rest' = comment ++ ("*/".toList ++ (leadingText l ++ d :: body)) := splitFirst_eq_append hsplit
          simp [hrest, leadingText, Leading.text]
        · cases h
      split at h
      · rename_i hline
        obtain ⟨rest', hrest⟩ := startsWith_iff.mp hline
        obtain ⟨rfl, rfl⟩ : c = '-' ∧ rest = '-' :: rest' := by simpa [eq_comm] using hrest
        split at h
        · rename_i comment after hsplit
          obtain ⟨l, d, body, rfl, hbegins⟩ := ih h
          have hbody : '\n' ∉ comment := by
            intro hmem
            refine not_infix_of_splitFirst (by simp) hsplit ?_
            exact (List.singleton_infix_iff _ _).mpr hmem
          refine ⟨.line comment hbody :: l, d, body, ?_, hbegins⟩
          have hrest : rest' = comment ++ ("\n".toList ++ (leadingText l ++ d :: body)) := splitFirst_eq_append hsplit
          simp [hrest, leadingText, Leading.text]
        · cases h
      split at h
      · split at h
        · cases h
          exact ⟨[], c, rest, rfl, trivial⟩
        · cases h
      split at h
      · rename_i hword
        cases h
        exact ⟨[], c, rest, rfl, rest.takeWhile isLexWordChar, List.takeWhile_cons_of_pos hword⟩
      · cases h
        exact ⟨[], c, rest, rfl, rfl⟩

end Lexer

/-! ## Cacheability -/

section Cacheable

variable {s t : Str} {c : Char}

/-- What does not begin with `S` is not cached. -/
theorem not_cacheable_of_head {k : Char} (ht : trimStart s = c :: t) (hc : upperChar c = [k])
    (hk : isWhitespace k = false) (hS : k ≠ 'S') : isCacheable s = false := by
  -- blanks have no case, so the first other character stays where it is
  have hblanks : trimStart (toUppercase (s.takeWhile isWhitespace)) = [] := by
    have hsame : toUppercase (s.takeWhile isWhitespace) = (s.takeWhile isWhitespace).map id :=
      toUppercase_of_single id fun c hc => upperChar_of_blank (List.mem_takeWhile_imp hc)
    rw [hsame, List.map_id, trimStart, List.dropWhile_eq_nil_iff]
    exact fun c hc => List.mem_takeWhile_imp hc
  have hupper : trimStart (toUppercase s) = k :: toUppercase t := by
    have hs : s = s.takeWhile isWhitespace ++ c :: t := by
      rw [← ht]
      exact List.takeWhile_append_dropWhile.symm
    have hcons : toUppercase (c :: t) = k :: toUppercase t := by
      rw [toUppercase, List.flatMap_cons, hc]
      rfl
    rw [hs, toUppercase_append, trimStart_append_of_blank hblanks, hcons]
    simp [trimStart, hk]
  have hselect : startsWith (trimStart (toUppercase s)) "SELECT" = false := by
    rw [hupper, Bool.eq_false_iff]
    intro hstart
    have hpre : 'S' :: "ELECT".toList <+: k :: toUppercase t := startsWith_iff.mp hstart
    exact hS (List.cons_prefix_cons.mp hpre).1.symm
  simp [isCacheable, hselect]

/-- What locks is not cached. -/
theorem not_cacheable_of_locking (h : hasLocking s = true) : isCacheable s = false := by
  rw [hasLocking, Bool.or_eq_true] at h
  have hfound : contains (toUppercase s) "FOR UPDATE" = true ∨ contains (toUppercase s) "FOR SHARE" = true :=
    h.imp (contains_toUppercase (forall_of_all (by decide))) (contains_toUppercase (forall_of_all (by decide)))
  unfold isCacheable
  dsimp only
  split
  · rfl
  · rw [if_pos (by simpa using hfound)]

/-- What is taken for a write is not cached. -/
theorem not_cacheable_of_beginsWrite (h : beginsWrite (skipLeadingComments s) = true) : isCacheable s = false := by
  cases ht : trimStart s with
  | nil =>
    rw [skip_eq, ht] at h
    cases h
  | cons c t =>
    cases hafter : afterComment (c :: t) with
    | some rest =>
      rcases afterComment_eq hafter with ⟨hstart, -⟩ | ⟨hstart, -⟩
      · have hpre : ['/', '*'] <+: c :: t := startsWith_iff.mp hstart
        obtain rfl := (List.cons_prefix_cons.mp hpre).1
        exact not_cacheable_of_head ht (k := '/') (by decide) (by decide) (by decide)
      · have hpre : ['-', '-'] <+: c :: t := startsWith_iff.mp hstart
        obtain rfl := (List.cons_prefix_cons.mp hpre).1
        exact not_cacheable_of_head ht (k := '-') (by decide) (by decide) (by decide)
    | none =>
      -- nothing is skipped, so the text itself begins like a write
      rw [skip_eq, ht, hafter] at h
      obtain ⟨d, v, heq, hd⟩ := head_of_beginsWrite h
      cases heq
      have hplain : ∀ k ∈ writeHeads, k.toNat < 128 ∧ isWhitespace k = false ∧ k ≠ 'S' :=
        forall_of_all (by decide)
      obtain ⟨hascii, hblank, hS⟩ := hplain _ hd
      exact not_cacheable_of_head ht (upperChar_of_ascii (ascii_of_asciiUpper hascii)) hblank hS

end Cacheable

/-! ## Locking reads -/

/-- Among the leading comments is one that the code ends where it begins. -/
def StartsEarlyEnd (sql : Str) : Prop := ∃ l body, sql = leadingText l ++ body ∧ afterEarlyEnd l ≠ none

/-- Behind its leading comments, a locking read begins with `SELECT` or a parenthesis. -/
theorem LockingSelect.begins {escapes : Bool} {sql : Str} (h : LockingSelect escapes sql) :
    ∃ l c body, sql = leadingText l ++ c :: body ∧ asciiUpper c ∈ ['S', '('] := by
  obtain ⟨hselect, -⟩ := h
  cases hlex : lex escapes sql with
  | nil =>
    rw [hlex] at hselect
    cases hselect
  | cons t ts =>
    obtain ⟨l, c, body, hsql, hbegins⟩ := lex_first hlex
    refine ⟨l, c, body, hsql, ?_⟩
    rw [hlex, List.dropWhile_cons] at hselect
    split at hselect
    · rename_i hparen
      obtain rfl := eq_of_beq hparen
      obtain rfl : '(' = c := hbegins
      decide
    · have hkeyword := Option.some.inj hselect
      cases t with
      | word w =>
        obtain ⟨w', rfl⟩ := hbegins
        have hhead : asciiUpper c = 'S' := (List.cons.inj hkeyword).1
        simp [hhead]
      | literal => cases hkeyword
      | sign d => cases hkeyword

/-- **Locking reads** are writes and not cached exactly if the code sees the `SELECT` and finds `FOR UPDATE` or
`FOR SHARE` somewhere in the text, with one space. (Or it takes the rest of a comment for a write.) -/
theorem locking_read_iff {escapes : Bool} {sql : Str} (h : LockingSelect escapes sql) :
    (classify sql = .write ∧ isCacheable sql = false) ↔
      (beginsSelect (skipLeadingComments sql) = true ∧ hasLocking sql = true) ∨
        (StartsEarlyEnd sql ∧ beginsWrite (skipLeadingComments sql) = true) := by
  rw [classify_write]
  constructor
  · rintro ⟨hwrite | hselect, -⟩
    · refine .inr ⟨?_, hwrite⟩
      obtain ⟨l, c, body, rfl, hc⟩ := h.begins
      refine ⟨l, c :: body, rfl, fun hearly => ?_⟩
      -- all comments are skipped, and a locking read does not begin like a write
      have hskip := skip_leading l (c :: body)
      simp only [hearly] at hskip
      rw [hskip, skip_keyword (List.mem_append_left _ hc)] at hwrite
      obtain ⟨d, v, heq, hd⟩ := head_of_beginsWrite hwrite
      cases heq
      have hapart : ∀ k ∈ writeHeads, k ∉ ['S', '('] := forall_of_all (by decide)
      exact hapart _ hd hc
    · exact .inl hselect
  · rintro (⟨hselect, hlock⟩ | ⟨-, hwrite⟩)
    · exact ⟨.inr ⟨hselect, hlock⟩, not_cacheable_of_locking hlock⟩
    · exact ⟨.inl hwrite, not_cacheable_of_beginsWrite hwrite⟩

theorem locking_read_oneSpace :
    (classify "SELECT 1 FOR UPDATE".toList = .write ∧ isCacheable "SELECT 1 FOR UPDATE".toList = false) ↔
      (beginsSelect (skipLeadingComments "SELECT 1 FOR UPDATE".toList) = true ∧
          hasLocking "SELECT 1 FOR UPDATE".toList = true) ∨
        (StartsEarlyEnd "SELECT 1 FOR UPDATE".toList ∧
          beginsWrite (skipLeadingComments "SELECT 1 FOR UPDATE".toList) = true) :=
  locking_read_iff (show LockingSelect true _ by decide +kernel)

/-- With two blanks a locking read is a read like any other. -/
theorem locking_read_missed : ¬∀ (escapes : Bool) (sql : Str), LockingSelect escapes sql →
    classify sql = .write ∧ isCacheable sql = false := by
  intro h
  have hlocks : LockingSelect true "SELECT 1 FOR  UPDATE".toList := by decide +kernel
  have hread : classify "SELECT 1 FOR  UPDATE".toList = .read := by decide +kernel
  cases hread.symm.trans (h _ _ hlocks).1

end TurbineProxy
