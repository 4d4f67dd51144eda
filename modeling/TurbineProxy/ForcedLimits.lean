import TurbineProxy.SqlBoundaries
import TurbineProxy.Rewriter
import TurbineProxy.GroupReplication

/-!
# A forced LIMIT

`enforce_limit` appends `LIMIT n` to a SELECT that has no LIMIT. It looks for one by searching the text, and it takes
the semicolons at the end away. Here a statement is what the server reads, its tokens (`SingleSelect`), and a LIMIT
clause of its own is one that stands outside of all parentheses (`HasLimit`).

Whether the limit is effective depends on the layout: the statement must begin with the word itself, not with a comment,
the word LIMIT must have a space on both sides, and what is left without semicolons must not end in a comment or with
yet another semicolon.
-/

namespace TurbineProxy

open Str

/-! ## Statements -/

/-- A word behind it is a name. -/
def Token.namesNext : Token → Bool
  | .sign c => c == '.' || c == '@'
  | t => t.keyword == "AS".toList

/-- What a clause outside of all parentheses means for a LIMIT. -/
inductive Clause : Type where
  /-- it is one -/
  | limit
  /-- none comes after it -/
  | last
  deriving DecidableEq

/-- What is known of a statement at one of its tokens. -/
structure Scan where
  /-- how many parentheses are open -/
  depth : Int
  /-- the token before -/
  prev : Option Token
  /-- a FROM clause began -/
  inFrom : Bool

namespace Scan

/-- At the beginning of a query no parenthesis is open, no token is behind, and no FROM clause has begun. -/
def start : Scan := ⟨0, none, false⟩

variable (s : Scan) (t : Token)

/-- The keyword that a token is. -/
def keyword : Str := if s.prev.any Token.namesNext then [] else t.keyword

/-- What is known behind a token: how many parentheses are open, the token itself, and whether a FROM clause has begun.
-/
def next : Scan where
  depth := s.depth + if t = .sign '(' then 1 else if t = .sign ')' then -1 else 0
  prev := some t
  inFrom :=
    if s.depth = 0 then
      if s.keyword t = "FROM".toList then true else if s.keyword t = "SELECT".toList then false else s.inFrom
    else s.inFrom

/-- Two words in a row that begin a clause after which there is no LIMIT. FETCH is the other spelling of LIMIT. -/
def lastWords : SqlDialect → List (Str × Str)
  | .mysql _ => [("FOR".toList, "UPDATE".toList), ("FOR".toList, "SHARE".toList), ("IN".toList, "SHARE".toList)]
  | .postgres => [("FETCH".toList, "FIRST".toList), ("FETCH".toList, "NEXT".toList)]

/-- The clause that begins with a token. MySQL has INTO in the select list too, before FROM. -/
def clause (d : SqlDialect) : Option Clause :=
  if s.depth ≠ 0 then none
  else if s.keyword t = "LIMIT".toList then some .limit
  else if (s.prev.map Token.keyword |>.getD [], s.keyword t) ∈ lastWords d then some .last
  else if d ≠ .postgres ∧ s.keyword t = "INTO".toList ∧ s.inFrom = true then some .last
  else none

/-- The clauses of the tokens that follow. -/
def clauses (d : SqlDialect) : Scan → List Token → List Clause
  | _, [] => []
  | s, t :: ts => (s.clause t d).toList ++ clauses d (s.next t) ts

end Scan

/-- The clauses of a text that matter here. -/
def topClauses (d : SqlDialect) (sql : Str) : List Clause := Scan.clauses d .start (sqlTokens d sql)

/-- The text is a SELECT to its end. -/
structure SelectText (d : SqlDialect) (sql : Str) : Prop where
  /-- comments and quotes end -/
  finished : ∀ t, .unfinished t ∉ (lexemes d sql).1
  /-- and so does the last executable comment -/
  outside : (lexemes d sql).2 = false
  /-- the first keyword -/
  select : (sqlTokens d sql).head?.map Token.keyword = some "SELECT".toList
  /-- parentheses -/
  balanced : ((sqlTokens d sql).foldl Scan.next .start).depth = 0

/-- The text is one SELECT, perhaps with semicolons after it. -/
structure SingleSelect (d : SqlDialect) (sql : Str) : Prop extends SelectText d sql where
  /-- no second statement -/
  single : ∃ body k, sqlTokens d sql = body ++ List.replicate k (.sign ';') ∧ .sign ';' ∉ body

/-- The statement has a LIMIT clause of its own. -/
def HasLimit (d : SqlDialect) (sql : Str) : Prop := .limit ∈ topClauses d sql

instance (d : SqlDialect) (sql : Str) : Decidable (HasLimit d sql) := inferInstanceAs (Decidable (_ ∈ _))

/-- The text is one SELECT whose one LIMIT clause is `LIMIT n`, at its end. -/
structure LimitedAtEnd (d : SqlDialect) (n : Nat) (sql : Str) : Prop extends SingleSelect d sql where
  /-- the clause -/
  clause : ∃ body, sqlTokens d sql = body ++ [.word "LIMIT".toList, .word (decimal n)]
  /-- there is no other one, and none that has to come after it -/
  only : topClauses d sql = [.limit]

/-- What a forced limit is for. -/
def LimitEnforced (d : SqlDialect) (n : Nat) (sql : Str) : Prop :=
  if HasLimit d sql then enforceLimit sql n = sql else LimitedAtEnd d n (enforceLimit sql n)

/-! ## What the text must look like -/

/-- The statement is seen to be a SELECT. -/
def seesSelect (sql : Str) : Bool := startsWith (toUppercase (trimStart sql)) "SELECT"

/-- The text is taken for one that has a limit. -/
def seesLimit (sql : Str) : Bool :=
  contains (toUppercase sql) " LIMIT " || endsWith (trimEnd (toUppercase sql)) "LIMIT"

/-- The text without blanks at its end, and then without semicolons. -/
def bareText (sql : Str) : Str := trimEndMatches ';' (trimEnd sql)

/-- A clause may be appended to a text: it does not end in a comment up to the end of the line, nor with a sign that
makes the next word a name, no semicolon is left in it, and it has no clause that must be the last. -/
structure Appendable (d : SqlDialect) (sql : Str) : Prop where
  /-- the end -/
  closed : ∀ l ∈ (lexemes d sql).1.getLast?, l.closed = true
  /-- the last token -/
  named : ∀ t ∈ (sqlTokens d sql).getLast?, t.namesNext = false
  /-- semicolons -/
  single : .sign ';' ∉ sqlTokens d sql
  /-- clauses -/
  open_ : .last ∉ topClauses d sql

/-- The layouts on which the limit is right. -/
def LimitSafe (d : SqlDialect) (sql : Str) : Prop :=
  if HasLimit d sql then seesSelect sql = false ∨ seesLimit sql = true
  else seesSelect sql = true ∧ seesLimit sql = false ∧ Appendable d (bareText sql)

/-! ## Scans -/

namespace Scan

variable {d : SqlDialect} {s : Scan} {ts us : List Token}

theorem clauses_append : clauses d s (ts ++ us) = clauses d s ts ++ clauses d (ts.foldl next s) us := by
  induction ts generalizing s with
  | nil => rfl
  | cons t ts ih => rw [List.cons_append, clauses, clauses, ih, List.append_assoc, List.foldl_cons]

theorem prev_foldl (hts : ts ≠ []) : (ts.foldl next s).prev = ts.getLast? := by
  obtain ⟨init, t, rfl⟩ := (List.eq_nil_or_concat' ts).resolve_left hts
  rw [List.foldl_append, List.getLast?_concat]
  rfl

/-- Only the word begins the clause. -/
theorem keyword_of_limit {t : Token} (h : .limit ∈ clauses d s [t]) : t.keyword = "LIMIT".toList := by
  rw [clauses, clauses, List.append_nil, Option.mem_toList, clause] at h
  split at h
  · cases h
  split at h
  · rename_i hkeyword
    rw [keyword] at hkeyword
    split at hkeyword
    · exact absurd hkeyword (by decide)
    · exact hkeyword
  split at h
  · cases h
  · split at h <;> cases h

end Scan

/-! ## The end of a text -/

/-- A token that is no part of a statement. -/
def Token.Idle (t : Token) : Prop := t ≠ .sign '(' ∧ t ≠ .sign ')' ∧ t.keyword ≠ "SELECT".toList

theorem Scan.depth_idle {s : Scan} {ts : List Token} (h : ∀ t ∈ ts, t.Idle) :
    (ts.foldl Scan.next s).depth = s.depth := by
  induction ts generalizing s with
  | nil => rfl
  | cons t ts ih =>
    obtain ⟨hopen, hclose, -⟩ := h t (.head _)
    rw [List.foldl_cons, ih fun t ht => h t (.tail _ ht), Scan.next, if_neg hopen, if_neg hclose, Int.add_zero]

theorem Scan.depth_word {s : Scan} {w : Str} : (s.next (.word w)).depth = s.depth := by
  rw [Scan.next, if_neg nofun, if_neg nofun, Int.add_zero]

/-- A word with a character beyond ASCII is no keyword. -/
theorem keyword_ne {w : Str} {c : Char} (hc : c ∈ w) (hhigh : 128 ≤ c.toNat) {keyword : String}
    (hkeyword : ∀ k ∈ keyword.toList, k.toNat < 128) : (Token.word w).keyword ≠ keyword.toList := by
  intro heq
  have hmem : asciiUpper c ∈ keyword.toList := heq ▸ List.mem_map_of_mem hc
  have hlow := ascii_of_asciiUpper (hkeyword _ hmem)
  omega

/-- There are only blanks and semicolons. -/
def Trailing (b : Str) : Prop := ∀ k ∈ b, k = ';' ∨ isWhitespace k = true

theorem sqlBlank_or_high {k : Char} (h : isWhitespace k = true) : isSqlBlank k = true ∨ 128 ≤ k.toNat := by
  simp only [isWhitespace, isSqlBlank, Bool.or_eq_true, Bool.and_eq_true, decide_eq_true_eq, beq_iff_eq] at h ⊢
  by_cases hspace : k.toNat = 0x20
  · refine .inl (.inl ?_)
    rw [← Char.ofNat_toNat k, hspace]
  · omega

theorem Trailing.keepsOpen {b : Str} (h : Trailing b) : KeepsOpen b where
  head k hk := by
    rcases h k (List.mem_of_mem_head? hk) with rfl | hblank
    · exact .inr (.inl rfl)
    · exact (sqlBlank_or_high hblank).imp_right .inr
  tag := by
    intro hdollar
    have hmem : '$' ∈ b := (List.dropWhile_suffix _).subset (List.mem_of_mem_head? hdollar)
    rcases h _ hmem with heq | hblank
    · exact absurd heq (by decide)
    · exact absurd hblank (by decide)
  notMem k hk hmem := by
    have hplain : ∀ k ∈ ['/', '$', Char.ofNat 0x27, '"', Char.ofNat 0x60], k ≠ ';' ∧ isWhitespace k = false :=
      forall_of_all (by decide)
    obtain ⟨hsemi, hblank⟩ := hplain k hk
    rcases h k hmem with heq | hblank'
    · exact hsemi heq
    · cases hblank.symm.trans hblank'

section Trailing

variable {d : SqlDialect} {inside inside' last last' : Bool} {c : Char} {rest b : Str} {l : Lexeme}
  {ls ms : List Lexeme}

theorem Trailing.tail {k : Char} (h : Trailing (k :: b)) : Trailing b := fun c hc => h c (.tail _ hc)

theorem Trailing.of_suffix {t : Str} (h : Trailing b) (ht : t <:+ b) : Trailing t := fun c hc => h c (ht.subset hc)

/-- The tokens of such a text are no part of a statement. -/
theorem Trailing.lexes (hb : Trailing b) (h : Lexes d inside b ls last) :
    last = inside ∧ ∀ t ∈ ls.filterMap Lexeme.token, t.Idle := by
  induction h with
  | nil inside => exact ⟨rfl, List.forall_mem_nil _⟩
  | @cons inside inside' last c rest r l ls head tail ih =>
    rcases hb c (.head _) with rfl | hblank
    · rw [readLexeme_plain (by decide)] at head
      cases head
      obtain ⟨hlast, hidle⟩ := ih hb.tail
      refine ⟨hlast, fun t ht => ?_⟩
      rcases List.mem_cons.mp ht with rfl | ht
      · exact ⟨by decide, by decide, by decide⟩
      · exact hidle t ht
    rcases sqlBlank_or_high hblank with hspace | hhigh
    · rw [readLexeme, if_pos hspace] at head
      cases head
      exact ih hb.tail
    · rw [readLexeme_high hhigh] at head
      cases head
      obtain ⟨hlast, hidle⟩ := ih (hb.tail.of_suffix (List.dropWhile_suffix _))
      refine ⟨hlast, fun t ht => ?_⟩
      rcases List.mem_cons.mp ht with rfl | ht
      · exact ⟨by rintro ⟨⟩, by rintro ⟨⟩, keyword_ne (.head _) hhigh (forall_of_all (by decide))⟩
      · exact hidle t ht

/-- Behind the last lexeme there is nothing that matters. A word may get longer. -/
theorem Trailing.more (hb : Trailing b) (hread : readLexeme d inside c rest = (l, [], last))
    (h : Lexes d inside (c :: (rest ++ b)) ms last') :
    (∃ t, .unfinished t ∈ ms) ∨
      last' = last ∧ (∀ t, l ≠ .unfinished t) ∧ ∃ idle : List Token, (∀ t ∈ idle, t.Idle) ∧
        (ms.filterMap Lexeme.token = l.token.toList ++ idle ∨
          ∃ w k x, l = .word w ∧ b.head? = some k ∧ 128 ≤ k.toNat ∧
            ms.filterMap Lexeme.token = .word (w ++ k :: x) :: idle) := by
  have hapart : SetApart b := hb.keepsOpen.toSetApart
  have hplain : readLexeme d inside c (rest ++ b) = (l, b, last) → (∀ t, l ≠ .unfinished t) →
      last' = last ∧ (∀ t, l ≠ .unfinished t) ∧ ∃ idle : List Token, (∀ t ∈ idle, t.Idle) ∧
        ms.filterMap Lexeme.token = l.token.toList ++ idle := by
    intro hread' hl
    cases h with
    | cons head tail =>
      cases hread'.symm.trans head
      obtain ⟨hlast, hidle⟩ := hb.lexes tail
      refine ⟨hlast, hl, _, hidle, ?_⟩
      rw [List.filterMap_cons]
      cases l.token <;> rfl
  cases l with
  | unfinished t =>
    obtain ⟨-, hread'⟩ := readLexeme_unfinished hb.keepsOpen hread ⟨t, rfl⟩
    cases h with
    | cons head tail =>
      cases hread'.symm.trans head
      exact .inl ⟨_, .head _⟩
  | blank | block | quoted | sign =>
    right
    obtain ⟨hlast, hl, idle, hidle, heq⟩ :=
      hplain (readLexeme_append hapart hread (.inr ⟨rfl, by rintro ⟨_, ⟨⟩⟩⟩)) (by rintro _ ⟨⟩)
    exact ⟨hlast, hl, idle, hidle, .inl heq⟩
  | line t =>
    right
    obtain ⟨hblank, hline, -, hr, rfl⟩ := readLexeme_eq_line hread
    cases hopens : d.opensLine c (rest ++ b) with
    | true =>
      have hall : ∀ k ∈ c :: rest, (!d.endsLine k) = true := List.dropWhile_eq_nil_iff.mp hr.symm
      cases h with
      | cons head tail =>
        rw [readLexeme, hblank, hopens, ← List.cons_append, List.dropWhile_append_of_pos hall] at head
        cases head
        obtain ⟨hlast, hidle⟩ := (hb.of_suffix (List.dropWhile_suffix _)).lexes tail
        exact ⟨hlast, by rintro _ ⟨⟩, _, hidle, .inl rfl⟩
    | false =>
      -- two hyphens at the end of the text, which are signs before a semicolon
      have hhyphens : c = '-' ∧ rest = ['-'] := by
        by_contra hne
        rw [hapart.opensLine fun hc hrest => hne ⟨hc, hrest⟩, hline] at hopens
        cases hopens
      obtain ⟨rfl, rfl⟩ := hhyphens
      have hsecond : d.opensLine '-' b = false := by
        have hhead : b.head? ≠ some '-' := hapart.head_ne (by decide)
        cases d <;> simp [SqlDialect.opensLine, hhead]
      cases h with
      | cons head tail =>
        cases (readLexeme_hyphen hopens).symm.trans head
        cases tail with
        | cons head tail =>
          cases (readLexeme_hyphen hsecond).symm.trans head
          obtain ⟨hlast, hidle⟩ := hb.lexes tail
          refine ⟨hlast, by rintro _ ⟨⟩, _, fun t ht => ?_, .inl rfl⟩
          rcases List.mem_cons.mp ht with rfl | ht
          · exact ⟨by decide, by decide, by decide⟩
          rcases List.mem_cons.mp ht with rfl | ht
          · exact ⟨by decide, by decide, by decide⟩
          · exact hidle t ht
  | word w =>
    right
    by_cases hneutral : Neutral b
    · obtain ⟨hlast, hl, idle, hidle, heq⟩ :=
        hplain (readLexeme_append hapart hread (.inr ⟨rfl, fun _ => hneutral⟩)) (by rintro _ ⟨⟩)
      exact ⟨hlast, hl, idle, hidle, .inl heq⟩
    · obtain ⟨hc, hopening, hd, rfl, hr, rfl⟩ := readLexeme_eq_word hread
      have hall : ∀ k ∈ rest, d.inWord c k = true := List.dropWhile_eq_nil_iff.mp hr.symm
      have hread' : readLexeme d last c (rest ++ b) = _ := readLexeme_word hc (hapart.opening.trans hopening) hd
      rw [List.takeWhile_append_of_pos hall, List.dropWhile_append_of_pos hall] at hread'
      obtain ⟨k, hk, hkey⟩ : ∃ k, b.head? = some k ∧ ¬(isSqlBlank k = true ∨ k = ';') := by
        by_contra hne
        exact hneutral fun k hk => not_not.mp fun hkey => hne ⟨k, hk, hkey⟩
      rw [not_or] at hkey
      have hhigh : 128 ≤ k.toNat :=
        (sqlBlank_or_high ((hb k (List.mem_of_mem_head? hk)).resolve_left hkey.2)).resolve_left hkey.1
      obtain ⟨b', rfl⟩ : ∃ b', b = k :: b' := ⟨_, (List.cons_head?_tail hk).symm⟩
      rw [List.takeWhile_cons_of_pos (inWord_of_high hhigh)] at hread'
      cases h with
      | cons head tail =>
        cases hread'.symm.trans head
        obtain ⟨hlast, hidle⟩ := (hb.of_suffix (List.dropWhile_suffix _)).lexes tail
        refine ⟨hlast, by rintro _ ⟨⟩, _, hidle, .inr ⟨_, k, b'.takeWhile (d.inWord c), rfl, rfl, hhigh, ?_⟩⟩
        rw [List.filterMap_cons, List.takeWhile_eq_self_iff.mpr hall]
        rfl

end Trailing

/-! ## The text without its end -/

/-- What a predicate trims from the end of a text. -/
theorem trimmed_append (p : Char → Bool) (s : Str) :
    (s.reverse.dropWhile p).reverse ++ (s.reverse.takeWhile p).reverse = s := by
  rw [← List.reverse_append, List.takeWhile_append_dropWhile, List.reverse_reverse]

theorem bareText_append (sql : Str) : ∃ b, Trailing b ∧ sql = bareText sql ++ b ∧
    (∀ k, b.head? = some k → k ≠ ';' → bareText sql = trimEnd sql) := by
  have hsemi : ∀ k ∈ ((trimEnd sql).reverse.takeWhile (· == ';')).reverse, k = ';' := by
    intro k hk
    simpa using List.mem_takeWhile_imp (List.mem_reverse.mp hk)
  have hblank : ∀ k ∈ (sql.reverse.takeWhile isWhitespace).reverse, isWhitespace k = true := by
    intro k hk
    exact List.mem_takeWhile_imp (List.mem_reverse.mp hk)
  have htrim := trimmed_append isWhitespace sql
  have hbare := trimmed_append (· == ';') (trimEnd sql)
  generalize hqs : ((trimEnd sql).reverse.takeWhile (· == ';')).reverse = qs at hsemi hbare
  refine ⟨qs ++ (sql.reverse.takeWhile isWhitespace).reverse, fun k hk => ?_, ?_, fun k hk hne => ?_⟩
  · exact (List.mem_append.mp hk).imp (hsemi k) (hblank k)
  · rw [← List.append_assoc]
    exact (congrArg (· ++ _) hbare).trans htrim |>.symm
  · cases qs with
    | nil => exact (List.append_nil _).symm.trans hbare
    | cons q qs =>
      cases hk
      exact absurd (hsemi k (.head _)) hne

section Bare

variable {d : SqlDialect} {sql : Str}

/-- A text that ends with the word LIMIT is seen to. -/
theorem endsWith_limit {front w : Str} (htrim : trimEnd sql = front ++ w)
    (hw : (Token.word w).keyword = "LIMIT".toList) : endsWith (trimEnd (toUppercase sql)) "LIMIT" = true := by
  have hword : toUppercase w = "LIMIT".toList := by
    rw [← hw]
    refine toUppercase_of_single asciiUpper fun c hc => upperChar_of_ascii (ascii_of_asciiUpper ?_)
    have hletters : ∀ k ∈ "LIMIT".toList, k.toNat < 128 := forall_of_all (by decide)
    exact hletters _ (hw ▸ List.mem_map_of_mem hc)
  have hblank : ∀ k ∈ (sql.reverse.takeWhile isWhitespace).reverse, isWhitespace k = true := by
    intro k hk
    exact List.mem_takeWhile_imp (List.mem_reverse.mp hk)
  have hsql := trimmed_append isWhitespace sql
  generalize (sql.reverse.takeWhile isWhitespace).reverse = blanks at hblank hsql
  have hupper : toUppercase sql = toUppercase front ++ ("LIMIT".toList ++ blanks) := by
    have hblanks : toUppercase blanks = blanks := by
      rw [toUppercase_of_single id fun c hc => upperChar_of_blank (hblank c hc), List.map_id]
    rw [← hsql]
    change toUppercase (trimEnd sql ++ blanks) = _
    rw [htrim, toUppercase_append, toUppercase_append, hword, hblanks, List.append_assoc]
  have hdrop : (toUppercase sql).reverse.dropWhile isWhitespace = "TIMIL".toList ++ (toUppercase front).reverse := by
    rw [hupper, List.reverse_append, List.reverse_append, List.append_assoc,
      List.dropWhile_append_of_pos fun k hk => hblank k (List.mem_reverse.mp hk)]
    exact List.dropWhile_cons_of_neg (by decide)
  rw [endsWith, List.isSuffixOf_iff_suffix, trimEnd, hdrop, List.reverse_append, List.reverse_reverse]
  exact ⟨_, rfl⟩

/-- The text without its end has the tokens of the statement, unless a blank beyond ASCII was taken from a word. -/
theorem SelectText.tokens_bare (h : SelectText d sql) :
    (∀ t, .unfinished t ∉ (lexemes d (bareText sql)).1) ∧ (lexemes d (bareText sql)).2 = false ∧
      ∃ idle : List Token, (∀ t ∈ idle, t.Idle) ∧
        (sqlTokens d sql = sqlTokens d (bareText sql) ++ idle ∨
          ∃ ts w k x, 128 ≤ k.toNat ∧ sqlTokens d (bareText sql) = ts ++ [.word w] ∧
            sqlTokens d sql = ts ++ .word (w ++ k :: x) :: idle ∧ w <:+ bareText sql ∧
              bareText sql = trimEnd sql) := by
  obtain ⟨b, hb, hsql, htrim⟩ := bareText_append sql
  generalize bareText sql = bare at hsql htrim
  have hbare := lexemes_lexes d bare
  by_cases hnil : bare = []
  · subst hnil
    refine ⟨nofun, rfl, sqlTokens d sql, ?_, .inl rfl⟩
    rw [hsql, List.nil_append]
    exact (hb.lexes (lexemes_lexes d b)).2
  obtain ⟨init, l, inside, c, rest, hls, hread, hgoes⟩ := hbare.cut hnil
  obtain ⟨ms, last', hms⟩ : ∃ ms last', Lexes d inside (c :: (rest ++ b)) ms last' :=
    ⟨_, _, lexemesLoop_lexes (Nat.lt_succ_self _)⟩
  have hlexemes : lexemes d sql = (init ++ ms, last') := by
    rw [hsql]
    exact (hgoes b hb.keepsOpen.toSetApart ms last' hms).lexemes_eq
  have hfinished := h.finished
  have houtside := h.outside
  rw [hlexemes] at hfinished houtside
  rcases hb.more hread hms with ⟨t, ht⟩ | ⟨rfl, hl, idle, hidle, heq⟩
  · exact absurd (List.mem_append_right init ht) (hfinished t)
  · refine ⟨fun t ht => ?_, houtside, idle, hidle, ?_⟩
    · rw [hls] at ht
      rcases List.mem_append.mp ht with ht | ht
      · exact hfinished t (List.mem_append_left ms ht)
      · exact hl t (List.mem_singleton.mp ht).symm
    · rw [sqlTokens, sqlTokens, hlexemes, hls, List.filterMap_append, List.filterMap_append]
      have hlast : [l].filterMap Lexeme.token = l.token.toList := by
        rw [List.filterMap_cons]
        cases l.token <;> rfl
      rcases heq with heq | ⟨w, k, x, rfl, hk, hhigh, heq⟩
      · exact .inl (by rw [heq, hlast, List.append_assoc])
      · have hsuffix : w <:+ bare := by
          refine ⟨init.flatMap Lexeme.text, ?_⟩
          rw [← hbare.text, hls, List.flatMap_append, List.flatMap_singleton]
          rfl
        have hk' : k ≠ ';' := by
          rintro rfl
          exact absurd hhigh (by decide)
        exact .inr ⟨_, w, k, x, hhigh, rfl, congrArg _ heq, hsuffix, htrim k hk hk'⟩

/-- It is a SELECT too, -/
theorem SelectText.bare (h : SelectText d sql) : SelectText d (bareText sql) := by
  obtain ⟨hfinished, houtside, idle, hidle, htokens⟩ := h.tokens_bare
  have hselect := h.select
  have hbalanced := h.balanced
  refine ⟨hfinished, houtside, ?_, ?_⟩
  · rcases htokens with htokens | ⟨ts, w, k, x, hhigh, hbare, htokens, -, -⟩
    · rw [htokens] at hselect
      cases htoks : sqlTokens d (bareText sql) with
      | nil =>
        rw [htoks, List.nil_append, Option.map_eq_some_iff] at hselect
        obtain ⟨t, ht, hkeyword⟩ := hselect
        exact absurd hkeyword (hidle t (List.mem_of_mem_head? ht)).2.2
      | cons t ts =>
        rw [htoks] at hselect
        exact hselect
    · rw [htokens] at hselect
      cases ts with
      | nil =>
        have hmem : k ∈ w ++ k :: x := List.mem_append_right w (.head x)
        exact absurd (Option.some.inj hselect) (keyword_ne hmem hhigh (forall_of_all (by decide)))
      | cons t ts =>
        rw [hbare]
        exact hselect
  · rcases htokens with htokens | ⟨ts, w, k, x, hhigh, hbare, htokens, -, -⟩
    · rw [htokens, List.foldl_append, Scan.depth_idle hidle] at hbalanced
      exact hbalanced
    · rw [htokens, List.foldl_append, List.foldl_cons, Scan.depth_idle hidle, Scan.depth_word] at hbalanced
      rw [hbare, List.foldl_append, List.foldl_cons, List.foldl_nil, Scan.depth_word]
      exact hbalanced

/-- and if it has a limit, so has the statement, or its text ends with the word. -/
theorem SelectText.limit_bare (h : SelectText d sql) (hlimit : HasLimit d (bareText sql)) :
    HasLimit d sql ∨ seesLimit sql = true := by
  obtain ⟨-, -, idle, hidle, htokens⟩ := h.tokens_bare
  rcases htokens with htokens | ⟨ts, w, k, x, hhigh, hbare, htokens, hsuffix, htrim⟩
  · left
    rw [HasLimit, topClauses, htokens, Scan.clauses_append]
    exact List.mem_append_left _ hlimit
  · rw [HasLimit, topClauses, hbare, Scan.clauses_append] at hlimit
    rcases List.mem_append.mp hlimit with hlimit | hlimit
    · left
      rw [HasLimit, topClauses, htokens, Scan.clauses_append]
      exact List.mem_append_left _ hlimit
    · right
      obtain ⟨front, hfront⟩ := hsuffix
      rw [seesLimit, Bool.or_eq_true]
      exact .inr (endsWith_limit (hfront.trans htrim).symm (Scan.keyword_of_limit hlimit))

end Bare

/-! ## The clause that is appended -/

/-- What is appended. -/
def limitText (n : Nat) : Str := " LIMIT ".toList ++ decimal n

theorem enforceLimit_eq (sql : Str) (n : Nat) :
    enforceLimit sql n =
      if seesSelect sql = false ∨ seesLimit sql = true then sql else bareText sql ++ limitText n := by
  have happend (word : Str) :
      trimEndMatches ';' (trimEnd sql) ++ word ++ decimal n = bareText sql ++ (word ++ decimal n) :=
    List.append_assoc ..
  have hcases (select limit : Bool) (x y : Str) :
      (if !select then x else if limit then x else y) = if select = false ∨ limit = true then x else y := by
    cases select <;> cases limit <;> simp
  simp only [enforceLimit, happend]
  exact hcases _ _ _ _

section Appending

variable {d : SqlDialect} {n : Nat} {sql : Str} {s : Scan}

theorem digit_of_mem {c : Char} (h : c ∈ decimal n) : c ∈ "0123456789".toList := by
  have hdigits : ∀ k ∈ "-/*!'\"`#$".toList, k.isDigit = false := forall_of_all (by decide)
  have hdigit := isDigit_of_mem_decimal h
  have hsplit : "-/*!'\"`#$0123456789".toList = "-/*!'\"`#$".toList ++ "0123456789".toList := rfl
  have hmem := hsplit ▸ mem_of_isDigit hdigit
  refine (List.mem_append.mp hmem).resolve_left fun hmem => ?_
  cases hdigit.symm.trans (hdigits c hmem)

theorem lexes_limitText : Lexes d false (limitText n)
    [.blank ' ', .word "LIMIT".toList, .blank ' ', .word (decimal n)] false := by
  have hblank (rest : Str) : readLexeme d false ' ' rest = (.blank ' ', rest, false) := by
    rw [readLexeme]
    rfl
  obtain ⟨c, rest, hdecimal⟩ := List.exists_cons_of_ne_nil (decimal_ne_nil n)
  have hword : readLexeme d false 'L' ("IMIT ".toList ++ decimal n) =
      (.word "LIMIT".toList, ' ' :: decimal n, false) := by
    rw [readLexeme_plain (by decide)]
    cases d <;> rfl
  have hall : ∀ k ∈ rest, d.inWord c k = true := by
    have hplain : ∀ c ∈ "0123456789".toList, isTagChar c = true ∧ isLexWordChar c = true :=
      forall_of_all (by decide)
    intro k hk
    obtain ⟨htag, hlex⟩ := hplain k (digit_of_mem (hdecimal ▸ List.mem_cons_of_mem c hk))
    cases d with
    | mysql version => exact hlex
    | postgres =>
      rw [SqlDialect.inWord]
      split
      · exact htag
      · exact hlex
  have hnumber : readLexeme d false c rest = (.word (decimal n), [], false) := by
    have hplain : ∀ c ∈ "0123456789".toList,
        c ∉ "#-/*'\"`EeUu$".toList ∧ isSqlBlank c = false ∧ isLexWordChar c = true := forall_of_all (by decide)
    obtain ⟨hc, hspace, hlex⟩ := hplain c (digit_of_mem (hdecimal ▸ List.mem_cons_self ..))
    rw [readLexeme_plain hc, hspace, hlex, List.takeWhile_eq_self_iff.mpr hall, List.dropWhile_eq_nil_iff.mpr hall,
      ← hdecimal]
    rfl
  refine .cons (hblank _) (.cons hword (.cons (hblank _) ?_))
  rw [hdecimal] at hnumber ⊢
  exact .cons hnumber (.nil false)

/-- Behind a text that is closed there are two more tokens. -/
theorem tokens_appended (houtside : (lexemes d sql).2 = false)
    (hclosed : ∀ l ∈ (lexemes d sql).1.getLast?, l.closed = true) :
    lexemes d (sql ++ limitText n) =
      ((lexemes d sql).1 ++ [.blank ' ', .word "LIMIT".toList, .blank ' ', .word (decimal n)], false) := by
  have hneutral : Neutral (limitText n) := by
    intro k hk
    cases hk
    exact .inl rfl
  have hlexes := lexemes_lexes d sql
  rw [houtside] at hlexes
  exact (hlexes.append hclosed hneutral lexes_limitText).lexemes_eq

/-- A number is no keyword. -/
theorem keyword_decimal {keyword : String} (h : ∀ c ∈ "0123456789".toList, c ∉ keyword.toList) :
    (Token.word (decimal n)).keyword ≠ keyword.toList := by
  intro heq
  obtain ⟨c, rest, hdecimal⟩ := List.exists_cons_of_ne_nil (decimal_ne_nil n)
  have hmem : c ∈ "0123456789".toList := digit_of_mem (hdecimal ▸ List.mem_cons_self ..)
  have hupper : ∀ c ∈ "0123456789".toList, asciiUpper c = c := forall_of_all (by decide)
  have hkeyword : asciiUpper c ∈ keyword.toList := by
    rw [← heq, Token.keyword, hdecimal]
    exact List.mem_map_of_mem (.head _)
  exact h c hmem (hupper c hmem ▸ hkeyword)

/-- The new clause is one, unless the last token makes a name of its word. -/
theorem Scan.clauses_limit (hdepth : s.depth = 0) :
    clauses d s [.word "LIMIT".toList, .word (decimal n)] =
      if s.prev.any Token.namesNext then [] else [.limit] := by
  have hnumber : (s.next (.word "LIMIT".toList)).clause (.word (decimal n)) d = none := by
    have hkeyword : (s.next (.word "LIMIT".toList)).keyword (.word (decimal n)) = (Token.word (decimal n)).keyword :=
      rfl
    have hdepth' : (s.next (.word "LIMIT".toList)).depth = 0 := Scan.depth_word.trans hdepth
    have hlast (first : Str) : (first, (Token.word (decimal n)).keyword) ∉ lastWords d := by
      intro hmem
      cases d with
      | mysql version =>
        simp only [lastWords, List.mem_cons, List.not_mem_nil, or_false, Prod.mk.injEq] at hmem
        rcases hmem with ⟨-, h⟩ | ⟨-, h⟩ | ⟨-, h⟩ <;> exact keyword_decimal (forall_of_all (by decide)) h
      | postgres =>
        simp only [lastWords, List.mem_cons, List.not_mem_nil, or_false, Prod.mk.injEq] at hmem
        rcases hmem with ⟨-, h⟩ | ⟨-, h⟩ <;> exact keyword_decimal (forall_of_all (by decide)) h
    rw [clause, hkeyword, if_neg (not_not.mpr hdepth'), if_neg (keyword_decimal (forall_of_all (by decide))),
      if_neg (hlast _), if_neg fun h => keyword_decimal (forall_of_all (by decide)) h.2.1]
  rw [clauses, clauses, clauses, hnumber, clause, if_neg (not_not.mpr hdepth), keyword]
  split
  · cases d <;> simp [lastWords]
  · rw [if_pos (by decide)]
    rfl

/-- Behind a comment up to the end of the line there is no new token. -/
theorem tokens_lost {l : Lexeme} (hfinished : ∀ t, .unfinished t ∉ (lexemes d sql).1)
    (hl : (lexemes d sql).1.getLast? = some l) (hopen : l.closed = false) :
    sqlTokens d (sql ++ limitText n) = sqlTokens d sql := by
  have hlexes := lexemes_lexes d sql
  have hnil : sql ≠ [] := by
    rintro rfl
    cases hl
  obtain ⟨init, l', inside, c, rest, hls, hread, hgoes⟩ := hlexes.cut hnil
  rw [hls, List.getLast?_concat] at hl
  cases hl
  cases l with
  | line t =>
    have hneutral : Neutral (limitText n) := by
      intro k hk
      cases hk
      exact .inl rfl
    have hend : ∀ k ∈ limitText n, d.endsLine k = false := by
      have hword : ∀ k ∈ " LIMIT ".toList, k ≠ '\n' ∧ k ≠ '\r' := forall_of_all (by decide)
      have hdigit : ∀ k ∈ "0123456789".toList, k ≠ '\n' ∧ k ≠ '\r' := forall_of_all (by decide)
      intro k hk
      obtain ⟨hn, hr⟩ := (List.mem_append.mp hk).elim (hword k) fun hk => hdigit k (digit_of_mem hk)
      cases d <;> simp [SqlDialect.endsLine, hn, hr]
    -- the clause begins with a blank, whatever else is in it
    obtain ⟨clause, hclause⟩ : ∃ clause, limitText n = ' ' :: clause := ⟨_, rfl⟩
    rw [hclause] at hneutral hend ⊢
    have hread' := readLexeme_line hend hread
    rw [sqlTokens, sqlTokens, (hgoes _ hneutral.apart _ _ (.cons hread' (.nil _))).lexemes_eq, hls,
      List.filterMap_append, List.filterMap_append]
    rfl
  | unfinished t =>
    rw [hls] at hfinished
    exact absurd (List.mem_append_right _ (.head _)) (hfinished t)
  | blank | block | quoted | word | sign => cases hopen

/-- The clause is the one at the end exactly if the text is such that a clause may be appended. -/
theorem SelectText.limited_iff (h : SelectText d sql) (hlimit : ¬HasLimit d sql) :
    LimitedAtEnd d n (sql ++ limitText n) ↔ Appendable d sql := by
  have hne : sqlTokens d sql ≠ [] := by
    intro hnil
    have hselect := h.select
    rw [hnil] at hselect
    cases hselect
  have hprev : ((sqlTokens d sql).foldl Scan.next .start).prev = (sqlTokens d sql).getLast? := Scan.prev_foldl hne
  have htokens : (∀ l ∈ (lexemes d sql).1.getLast?, l.closed = true) →
      sqlTokens d (sql ++ limitText n) = sqlTokens d sql ++ [.word "LIMIT".toList, .word (decimal n)] := by
    intro hclosed
    rw [sqlTokens, tokens_appended h.outside hclosed, List.filterMap_append]
    rfl
  have hclauses : (∀ l ∈ (lexemes d sql).1.getLast?, l.closed = true) →
      topClauses d (sql ++ limitText n) =
        topClauses d sql ++ if (sqlTokens d sql).getLast?.any Token.namesNext then [] else [.limit] := by
    intro hclosed
    rw [topClauses, htokens hclosed, Scan.clauses_append, Scan.clauses_limit h.balanced, hprev]
    rfl
  constructor
  · intro hout
    have hclosed : ∀ l ∈ (lexemes d sql).1.getLast?, l.closed = true := by
      intro l hl
      by_contra hopen
      have honly := hout.only
      rw [topClauses, tokens_lost h.finished hl (Bool.eq_false_iff.mpr hopen)] at honly
      exact hlimit (by rw [HasLimit, topClauses, honly]; exact .head _)
    have honly := hout.only
    rw [hclauses hclosed] at honly
    split at honly
    · rw [List.append_nil] at honly
      exact absurd (by rw [HasLimit, honly]; exact .head _) hlimit
    rename_i hnamed
    have hnone : topClauses d sql = [] := List.append_left_eq_self.mp honly
    refine ⟨hclosed, fun t ht => ?_, fun hsemi => ?_, by rw [hnone]; nofun⟩
    · rw [ht, Option.any_some] at hnamed
      exact Bool.eq_false_iff.mpr hnamed
    · obtain ⟨body, k, heq, hbody⟩ := hout.single
      rw [htokens hclosed] at heq
      cases k with
      | zero =>
        rw [List.replicate_zero, List.append_nil] at heq
        exact hbody (heq ▸ List.mem_append_left _ hsemi)
      | succ k =>
        -- the last token is the number
        have hend := congrArg List.getLast? heq
        rw [List.replicate_succ', ← List.append_assoc, List.getLast?_concat] at hend
        rw [List.append_cons, List.getLast?_concat] at hend
        cases hend
  · intro happ
    have hnone : topClauses d sql = [] := by
      apply List.eq_nil_iff_forall_not_mem.mpr
      intro clause hclause
      cases clause with
      | limit => exact hlimit hclause
      | last => exact happ.open_ hclause
    have hnamed : ¬((sqlTokens d sql).getLast?.any Token.namesNext = true) := by
      rw [Option.any_eq_true]
      rintro ⟨t, ht, hnames⟩
      cases hnames.symm.trans (happ.named t ht)
    have hwords : ∀ s : Scan, ([.word "LIMIT".toList, .word (decimal n)].foldl Scan.next s).depth = s.depth := by
      intro s
      rw [List.foldl_cons, List.foldl_cons, List.foldl_nil, Scan.depth_word, Scan.depth_word]
    constructor
    · constructor
      · constructor
        · intro t ht
          rw [tokens_appended h.outside happ.closed] at ht
          rcases List.mem_append.mp ht with ht | ht
          · exact h.finished t ht
          · simp at ht
        · rw [tokens_appended h.outside happ.closed]
        · rw [htokens happ.closed, List.head?_append_of_ne_nil _ hne]
          exact h.select
        · rw [htokens happ.closed, List.foldl_append, hwords]
          exact h.balanced
      · refine ⟨_, 0, (htokens happ.closed).trans (List.append_nil _).symm, fun hsemi => ?_⟩
        rcases List.mem_append.mp hsemi with hsemi | hsemi
        · exact happ.single hsemi
        · simp at hsemi
    · exact ⟨_, htokens happ.closed⟩
    · rw [hclauses happ.closed, hnone, if_neg hnamed, List.nil_append]

end Appending

/-- A text that ends with the clause is seen to have one. -/
theorem seesLimit_limitText (n : Nat) (sql : Str) : seesLimit (sql ++ limitText n) = true := by
  have hcontains : contains (toUppercase (limitText n)) " LIMIT " = true := by
    have hword : contains (toUppercase " LIMIT ".toList ++ toUppercase (decimal n)) " LIMIT " = true :=
      contains_append_left (by decide)
    exact (congrArg (contains · " LIMIT ") toUppercase_append).trans hword
  rw [seesLimit, Bool.or_eq_true, toUppercase_append]
  exact .inl (contains_append_right hcontains)

/-- A limit is forced on the statements that are laid out for it, and on no other ones. -/
theorem enforceLimit_iff (d : SqlDialect) (n : Nat) (sql : Str) (h : SingleSelect d sql) :
    LimitEnforced d n sql ↔ LimitSafe d sql := by
  rw [LimitEnforced, LimitSafe, enforceLimit_eq]
  by_cases hlimit : HasLimit d sql
  · rw [if_pos hlimit, if_pos hlimit]
    refine ⟨fun heq => ?_, fun hskips => if_pos hskips⟩
    by_contra hskips
    rw [if_neg hskips] at heq
    have hsees := seesLimit_limitText n (bareText sql)
    rw [heq] at hsees
    exact hskips (.inr hsees)
  rw [if_neg hlimit, if_neg hlimit]
  by_cases hskips : seesSelect sql = false ∨ seesLimit sql = true
  · -- the text stays, without a limit
    rw [if_pos hskips]
    constructor
    · intro hout
      exact absurd (by rw [HasLimit, hout.only]; exact .head _) hlimit
    · rintro ⟨hselect, hsees, -⟩
      rw [hselect, hsees] at hskips
      exact absurd hskips (by decide)
  · rw [if_neg hskips]
    rw [not_or, Bool.not_eq_false, Bool.not_eq_true] at hskips
    have hbare : ¬HasLimit d (bareText sql) := by
      intro hbare
      rcases h.limit_bare hbare with hhas | hsees
      · exact hlimit hhas
      · cases hsees.symm.trans hskips.2
    rw [h.bare.limited_iff hbare]
    exact ⟨fun happ => ⟨hskips.1, hskips.2, happ⟩, fun hsafe => hsafe.2.2⟩

theorem enforceLimit_iff_plain :
    SingleSelect (.mysql 80036) "SELECT a FROM t ;\n".toList ∧
      LimitEnforced (.mysql 80036) 10 "SELECT a FROM t ;\n".toList := by
  have hlexemes : lexemes (.mysql 80036) "SELECT a FROM t ;\n".toList =
      ([.word "SELECT".toList, .blank ' ', .word "a".toList, .blank ' ', .word "FROM".toList, .blank ' ',
        .word "t".toList, .blank ' ', .sign ';', .blank '\n'], false) := by decide +kernel
  have hselect : SingleSelect (.mysql 80036) "SELECT a FROM t ;\n".toList := by
    refine ⟨⟨fun t ht => ?_, by rw [hlexemes], by decide +kernel, by decide +kernel⟩,
      [.word "SELECT".toList, .word "a".toList, .word "FROM".toList, .word "t".toList], 1, by decide +kernel,
      by decide⟩
    rw [hlexemes] at ht
    simp at ht
  refine ⟨hselect, (enforceLimit_iff _ _ _ hselect).mpr ?_⟩
  rw [LimitSafe, if_neg (by decide +kernel)]
  exact ⟨by decide +kernel, by decide +kernel, by decide +kernel, by decide +kernel, by decide +kernel,
    by decide +kernel⟩

/-- The limit is in the comment. -/
theorem forced_limit_commented :
    SingleSelect (.mysql 80036) "SELECT a FROM t -- all".toList ∧
      ¬LimitEnforced (.mysql 80036) 10 "SELECT a FROM t -- all".toList := by
  have hlexemes : lexemes (.mysql 80036) "SELECT a FROM t -- all".toList =
      ([.word "SELECT".toList, .blank ' ', .word "a".toList, .blank ' ', .word "FROM".toList, .blank ' ',
        .word "t".toList, .blank ' ', .line "-- all".toList], false) := by decide +kernel
  have hselect : SingleSelect (.mysql 80036) "SELECT a FROM t -- all".toList := by
    refine ⟨⟨fun t ht => ?_, by rw [hlexemes], by decide +kernel, by decide +kernel⟩,
      [.word "SELECT".toList, .word "a".toList, .word "FROM".toList, .word "t".toList], 0, by decide +kernel,
      by decide⟩
    rw [hlexemes] at ht
    simp at ht
  refine ⟨hselect, fun henforced => ?_⟩
  rw [LimitEnforced, if_neg (by decide +kernel)] at henforced
  have honly : topClauses (.mysql 80036) (enforceLimit "SELECT a FROM t -- all".toList 10) = [] := by decide +kernel
  cases honly.symm.trans henforced.only

end TurbineProxy
