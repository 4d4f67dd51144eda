import TurbineProxy.EpochFormat
import TurbineProxy.Json

/-!
# The audit log

`AuditLogger::log` writes its JSON by hand. It escapes some characters of the SQL text and nothing in the other strings,
so a line tells what was logged if, and only if, the other strings need no escape and the SQL text has no control
character but newlines (`log_tells_iff`).
-/

namespace TurbineProxy

open Json Str

/-! ## The code -/

/-- `to_rfc3339_opts` of a time. -/
structure Rfc3339 where
  text : Str
  isTime : text.all (fun c => c.isDigit || "-:.TZ+".toList.contains c) = true

/-- `str::replace` of a character -/
def replaceChar (c : Char) (new s : Str) : Str := s.flatMap fun d => if d = c then new else [d]

/-- `safe_sql` -/
def safeSql (sql : Str) : Str :=
  replaceChar '\n' "\\n".toList (replaceChar '"' "\\\"".toList (replaceChar '\\' "\\\\".toList sql))

/-- `{:.2}` of a duration, in hundredths. -/
def hundredthsText (n : Nat) : Str := decimal (n / 100) ++ '.' :: zeroPadded 2 (n % 100)

/-- The line of a record. -/
def auditLine (ts : Rfc3339) (user client sql destination : Str) (hundredths : Nat) (isError : Bool) : Str :=
  "\x7b\"ts\":\"".toList ++ ts.text ++ "\",\"user\":\"".toList ++ user ++ "\",\"client\":\"".toList ++ client ++
    "\",\"sql\":\"".toList ++ safeSql sql ++ "\",\"destination\":\"".toList ++ destination ++
    "\",\"duration_ms\":".toList ++ hundredthsText hundredths ++ ",\"error\":".toList ++
    (if isError then "true" else "false").toList ++ "\x7d\n".toList

/-- `AuditLogger`, with the content of its file if there is one. -/
structure AuditLogger where
  file : Option Str

/-- `AuditLogger::log`, if the lock is free or not. -/
def AuditLogger.log (l : AuditLogger) (free : Bool) (ts : Rfc3339) (user client sql destination : Str)
    (hundredths : Nat) (isError : Bool) : AuditLogger :=
  if free then ⟨l.file.map (· ++ auditLine ts user client sql destination hundredths isError)⟩ else l

/-! ## What a line tells -/

/-- The members have one of a name, with this string. -/
def HasOnly (members : Members) (name : String) (s : Str) : Prop :=
  (members.all name.toList).map Node.string? = [some s]

/-- The text is one line, and one JSON object with exactly these strings. -/
structure Tells (line user client sql destination : Str) : Prop where
  oneLine : ∃ body, line = body ++ ['\n'] ∧ '\n' ∉ body
  object : ∃ members : Members, Json.IsText (.object members) line ∧ HasOnly members "user" user ∧
    HasOnly members "client" client ∧ HasOnly members "sql" sql ∧ HasOnly members "destination" destination

/-- A member with a string, and what comes behind the comma. -/
def stringMember (name : String) (body rest : Str) : Str :=
  '"' :: (name.toList ++ '"' :: ':' :: '"' :: (body ++ '"' :: ',' :: rest))

/-- The end of a line. -/
def auditTail (hundredths : Nat) (isError : Bool) : Str :=
  "\"duration_ms\":".toList ++ (hundredthsText hundredths ++ (",\"error\":".toList ++
    ((if isError then "true" else "false").toList ++ "\x7d\n".toList)))

theorem auditLine_eq (ts : Rfc3339) (user client sql destination : Str) (hundredths : Nat) (isError : Bool) :
    auditLine ts user client sql destination hundredths isError =
      '{' :: stringMember "ts" ts.text (stringMember "user" user (stringMember "client" client
        (stringMember "sql" (safeSql sql) (stringMember "destination" destination
          (auditTail hundredths isError))))) := by
  have hts : "\x7b\"ts\":\"".toList = '{' :: '"' :: ("ts".toList ++ ['"', ':', '"']) := by decide
  have huser : "\",\"user\":\"".toList = '"' :: ',' :: '"' :: ("user".toList ++ ['"', ':', '"']) := by decide
  have hclient : "\",\"client\":\"".toList = '"' :: ',' :: '"' :: ("client".toList ++ ['"', ':', '"']) := by decide
  have hsql : "\",\"sql\":\"".toList = '"' :: ',' :: '"' :: ("sql".toList ++ ['"', ':', '"']) := by decide
  have hdestination : "\",\"destination\":\"".toList =
      '"' :: ',' :: '"' :: ("destination".toList ++ ['"', ':', '"']) := by decide
  have hduration : "\",\"duration_ms\":".toList = '"' :: ',' :: "\"duration_ms\":".toList := by decide
  unfold auditLine stringMember auditTail
  simp only [hts, huser, hclient, hsql, hdestination, hduration, List.append_assoc, List.cons_append, List.nil_append]

/-! ## Strings -/

/-- What a character of the SQL text becomes. -/
def safeChar (c : Char) : Str :=
  if c = '\\' then "\\\\".toList else if c = '"' then "\\\"".toList else if c = '\n' then "\\n".toList else [c]

theorem safeSql_cons (c : Char) (sql : Str) : safeSql (c :: sql) = safeChar c ++ safeSql sql := by
  have happend : ∀ (d : Char) (new s t : Str),
      replaceChar d new (s ++ t) = replaceChar d new s ++ replaceChar d new t := fun _ _ _ _ => List.flatMap_append
  have hchar : safeChar c = replaceChar '\n' "\\n".toList
      (replaceChar '"' "\\\"".toList (if c = '\\' then "\\\\".toList else [c])) := by
    rw [safeChar]
    split
    · decide
    · split
      · rename_i hc
        rw [hc]
        decide
      · rename_i hquote
        split
        · rename_i hc
          rw [hc]
          decide
        · rename_i hnewline
          simp [replaceChar, hquote, hnewline]
  rw [hchar, safeSql, safeSql, ← happend, ← happend]
  rfl

/-- The characters of an SQL text that a line can tell. -/
def IsLoggable (c : Char) : Prop := 0x20 ≤ c.toNat ∨ c = '\n'

/-- A character is escaped, or it stays as it is. -/
theorem safeChar_cases (c : Char) :
    (∃ e ∈ "\\\"n".toList, safeChar c = ['\\', e] ∧ escaped e = some c ∧ IsLoggable c) ∨
      safeChar c = [c] ∧ c ≠ '\\' ∧ c ≠ '"' ∧ c ≠ '\n' := by
  rw [safeChar]
  split
  · rename_i h
    exact .inl ⟨'\\', by decide, rfl, by rw [h]; rfl, .inl (by rw [h]; decide)⟩
  · rename_i hslash
    split
    · rename_i h
      exact .inl ⟨'"', by decide, rfl, by rw [h]; rfl, .inl (by rw [h]; decide)⟩
    · rename_i hquote
      split
      · rename_i h
        exact .inl ⟨'n', by decide, rfl, by rw [h]; rfl, .inr h⟩
      · rename_i hnewline
        exact .inr ⟨rfl, hslash, hquote, hnewline⟩

/-- How a character of the SQL text is written. -/
theorem spellsChar_safeChar {c : Char} (hc : IsLoggable c) : SpellsChar (safeChar c) c := by
  rcases safeChar_cases c with ⟨e, -, heq, hescaped, -⟩ | ⟨heq, hslash, hquote, hnewline⟩
  · rw [heq]
    exact .short hescaped
  · rw [heq]
    exact .plain ⟨hc.resolve_right hnewline, hquote, hslash⟩

theorem spells_safeSql {sql : Str} (h : ∀ c ∈ sql, IsLoggable c) : Spells (safeSql sql) sql := by
  induction sql with
  | nil => exact .nil
  | cons c sql ih =>
    rw [safeSql_cons]
    exact .cons (spellsChar_safeChar (h c (.head sql))) (ih fun d hd => h d (.tail c hd))

/-- A character that is written as one of the SQL text is that one. -/
theorem eq_of_safeChar {u rest rest' : Str} {c d : Char} (h : SpellsChar u d) (heq : u ++ rest = safeChar c ++ rest') :
    u = safeChar c ∧ d = c ∧ IsLoggable c := by
  rcases safeChar_cases c with ⟨e, he, hsafe, hescaped, hc⟩ | ⟨hsafe, hslash, -, -⟩
  · rw [hsafe] at heq ⊢
    have hshort : e ≠ 'u' := by
      rintro rfl
      exact absurd he (by decide)
    obtain ⟨hu, hd⟩ := h.eq_short hshort heq
    exact ⟨hu, Option.some.inj (hd.symm.trans hescaped), hc⟩
  · rw [hsafe] at heq ⊢
    obtain ⟨hu, hd, hplain⟩ := h.eq_plain hslash heq
    exact ⟨hu, hd, .inl hplain.1⟩

theorem safeChar_ne_quote (c : Char) (rest x : Str) : safeChar c ++ rest ≠ '"' :: x := by
  intro h
  rcases safeChar_cases c with ⟨e, -, hsafe, -, -⟩ | ⟨hsafe, -, hquote, -⟩
  · rw [hsafe] at h
    exact absurd (List.cons_eq_cons.mp h).1 (by decide)
  · rw [hsafe] at h
    exact hquote (List.cons_eq_cons.mp h).1

/-- A string that is written where the SQL text is spells the SQL text, which can then be told. -/
theorem eq_of_safeSql {sql raw value x y : Str} (h : Spells raw value)
    (heq : raw ++ '"' :: x = safeSql sql ++ '"' :: y) : value = sql ∧ (∀ c ∈ sql, IsLoggable c) ∧ x = y := by
  induction sql generalizing raw value with
  | nil =>
    rcases h.cases_text heq with ⟨-, rfl, hx⟩ | ⟨u, c, raw', value', -, -, hchar, -, hx⟩
    · exact ⟨rfl, List.forall_mem_nil _, (List.tail_eq_of_cons_eq hx).symm⟩
    · obtain ⟨-, -, hplain⟩ := hchar.eq_plain (by decide) hx
      exact absurd rfl hplain.2.1
  | cons c sql ih =>
    rw [safeSql_cons, List.append_assoc] at heq
    rcases h.cases_text heq with ⟨-, -, hx⟩ | ⟨u, d, raw', value', -, rfl, hchar, hrest, hx⟩
    · exact absurd hx (safeChar_ne_quote c _ x)
    · obtain ⟨rfl, rfl, hd⟩ := eq_of_safeChar hchar hx
      obtain ⟨rfl, hall, hxy⟩ := ih hrest (List.append_cancel_left hx)
      exact ⟨rfl, List.forall_mem_cons.mpr ⟨hd, hall⟩, hxy⟩

/-- A string that is written where a text stands, up to a comma behind a quote, and spells the text: it needs no
escape. -/
theorem plain_of_spells {s raw x y : Str} (h : Spells raw s)
    (heq : raw ++ '"' :: x = s ++ '"' :: ',' :: '"' :: y) : (∀ c ∈ s, IsPlain c) ∧ x = ',' :: '"' :: y := by
  obtain ⟨hle, hplain⟩ := h.length_le
  rcases List.append_eq_append_iff.mp heq with ⟨s', hs, hrest⟩ | ⟨raw', rfl, hrest⟩
  · have hlength : raw.length ≤ s.length := by
      rw [hs, List.length_append]
      omega
    obtain ⟨hraw, hall⟩ := hplain hlength
    obtain rfl : s' = [] := by simpa [hraw] using hs
    exact ⟨hall, List.tail_eq_of_cons_eq hrest⟩
  · match raw' with
    | [] =>
      rw [List.append_nil] at hplain
      exact ⟨(hplain (Nat.le_refl _)).2, (List.tail_eq_of_cons_eq hrest).symm⟩
    | [d] =>
      simp at hrest
    | [d, e] =>
      -- the quote is escaped, so the text ends with a backslash; what is written ends with the comma
      obtain ⟨rfl, rfl, -⟩ : '"' = d ∧ ',' = e ∧ y = x := by simpa using hrest
      obtain ⟨s', hs⟩ := h.backslash
      have happend : s ++ ['"', ','] = (s ++ ['"']) ++ [','] := by simp
      rw [happend] at h
      obtain ⟨s'', hs'⟩ := h.comma
      rw [hs] at hs'
      exact absurd (List.append_inj_right' hs' rfl) (by decide)
    | d :: e :: f :: raw' =>
      obtain ⟨rfl, rfl, rfl, -⟩ : '"' = d ∧ ',' = e ∧ '"' = f ∧ y = raw' ++ '"' :: x := by simpa using hrest
      have happend : s ++ '"' :: ',' :: '"' :: raw' = (s ++ ['"'] ++ [',']) ++ '"' :: raw' := by simp
      rw [happend] at h
      obtain ⟨s', hs'⟩ := h.backslash
      exact absurd (List.append_inj_right' hs' rfl) (by decide)

/-! ## Lines -/

/-- A string behind its name, up to the next member. -/
theorem read_member {name : String} {body rest : Str} {ms obj : Members} {ts more : List Json.Token}
    (hname : (name.toList.all fun c => c != '\\' && c != '"') = true)
    (hstrip : strip ts = ms.tokens obj ++ .mark .closeBrace :: more) (htext : text ts = stringMember name body rest) :
    ∃ n s ms' ts', ms = .member n (.string s) ms' ∧ n.value = name.toList ∧
      s.raw ++ '"' :: text ts' = body ++ '"' :: ',' :: rest ∧
      strip ts' = ms'.separator ++ (ms'.tokens obj ++ .mark .closeBrace :: more) := by
  have hall := List.all_eq_true.mp hname
  refine first_member hstrip (fun h => ?_) (fun h => ?_) htext
  · exact absurd (hall _ h) (by decide)
  · exact absurd (hall _ h) (by decide)

/-- Reading on behind a string whose place is known. -/
theorem read_next {rest x : Str} {ms obj : Members} {ts more : List Json.Token}
    (hstrip : strip ts = ms.separator ++ (ms.tokens obj ++ .mark .closeBrace :: more)) (hx : text ts = x)
    (hrest : x = ',' :: rest) : ∃ ts', text ts' = rest ∧ strip ts' = ms.tokens obj ++ .mark .closeBrace :: more :=
  next_member hstrip (hx.trans hrest)

theorem hasOnly_member_self {n s : Quoted} {rest : Members} {name : String} {v : Str} (hn : n.value = name.toList)
    (h : HasOnly (.member n (.string s) rest) name v) : s.value = v := by
  rw [HasOnly, Node.all, if_pos hn] at h
  exact Option.some.inj (List.cons_eq_cons.mp h).1

theorem hasOnly_member_ne {n : Quoted} {w : Value} {rest : Members} {name : String} {v : Str}
    (hn : n.value ≠ name.toList) : HasOnly (.member n w rest) name v ↔ HasOnly rest name v := by
  rw [HasOnly, HasOnly, Node.all, if_neg hn]

variable {ts : Rfc3339} {user client sql destination : Str} {hundredths : Nat} {isError : Bool}

theorem Rfc3339.plain (ts : Rfc3339) : ∀ c ∈ ts.text, IsPlain c := by
  intro c hc
  have h := List.all_eq_true.mp ts.isTime c hc
  rcases Bool.or_eq_true_iff.mp h with h | h
  · have hdigit : 48 ≤ c.toNat ∧ c.toNat ≤ 57 := by simpa [Char.isDigit, UInt32.le_iff_toNat_le] using h
    refine ⟨by omega, ?_, ?_⟩
    · rintro rfl
      exact absurd hdigit (by decide)
    · rintro rfl
      exact absurd hdigit (by decide)
  · have hall : ("-:.TZ+".toList.all fun c => decide (IsPlain c)) = true := by decide
    exact of_decide_eq_true (List.all_eq_true.mp hall c (List.contains_iff_mem.mp h))

/-- Text that stands for itself has no backslash and no quote. -/
theorem not_mem_of_plain {s : Str} (h : ∀ c ∈ s, IsPlain c) : '\\' ∉ s ∧ '"' ∉ s :=
  ⟨fun hmem => (h _ hmem).2.2 rfl, fun hmem => (h _ hmem).2.1 rfl⟩

/-- A line that tells what was logged has strings that need no escape, but for the SQL text. -/
theorem plain_of_tells (h : Tells (auditLine ts user client sql destination hundredths isError)
    user client sql destination) :
    (∀ c ∈ user, IsPlain c) ∧ (∀ c ∈ client, IsPlain c) ∧ (∀ c ∈ sql, IsLoggable c) ∧
      ∀ c ∈ destination, IsPlain c := by
  obtain ⟨members, ⟨tokens, hstrip, htext⟩, huser, hclient, hsql, hdestination⟩ := h.object
  rw [auditLine_eq] at htext
  obtain ⟨tokens, rfl, hts⟩ := text_eq_mark (m := .openBrace) htext
  have hmembers : strip tokens = members.tokens members ++ [.mark .closeBrace] := (List.cons_eq_cons.mp hstrip).2
  -- the time
  obtain ⟨n₀, s₀, ms₁, tokens₁, hms₀, hn₀, hs₀, hstrip₁⟩ := read_member (by decide) hmembers hts
  obtain ⟨hslash, hquote⟩ := not_mem_of_plain ts.plain
  obtain ⟨tokens₁', hts₁, hstrip₁'⟩ := read_next hstrip₁ rfl (s₀.spells.eq_of_append hslash hquote hs₀).2
  -- the user
  obtain ⟨n₁, s₁, ms₂, tokens₂, rfl, hn₁, hs₁, hstrip₂⟩ := read_member (by decide) hstrip₁' hts₁
  rw [hms₀, hasOnly_member_ne (by rw [hn₀]; decide)] at huser hclient hsql hdestination
  obtain rfl := hasOnly_member_self hn₁ huser
  obtain ⟨huser', hx₁⟩ := plain_of_spells s₁.spells hs₁
  obtain ⟨tokens₂', hts₂, hstrip₂'⟩ := read_next hstrip₂ rfl hx₁
  -- the client
  obtain ⟨n₂, s₂, ms₃, tokens₃, rfl, hn₂, hs₂, hstrip₃⟩ := read_member (by decide) hstrip₂' hts₂
  rw [hasOnly_member_ne (by rw [hn₁]; decide)] at hclient hsql hdestination
  obtain rfl := hasOnly_member_self hn₂ hclient
  obtain ⟨hclient', hx₂⟩ := plain_of_spells s₂.spells hs₂
  obtain ⟨tokens₃', hts₃, hstrip₃'⟩ := read_next hstrip₃ rfl hx₂
  -- the SQL text
  obtain ⟨n₃, s₃, ms₄, tokens₄, rfl, hn₃, hs₃, hstrip₄⟩ := read_member (by decide) hstrip₃' hts₃
  rw [hasOnly_member_ne (by rw [hn₂]; decide)] at hdestination
  obtain ⟨-, hsql', hx₃⟩ := eq_of_safeSql s₃.spells hs₃
  obtain ⟨tokens₄', hts₄, hstrip₄'⟩ := read_next hstrip₄ rfl hx₃
  -- the destination
  obtain ⟨n₄, s₄, ms₅, tokens₅, rfl, hn₄, hs₄, -⟩ := read_member (by decide) hstrip₄' hts₄
  rw [hasOnly_member_ne (by rw [hn₃]; decide)] at hdestination
  obtain rfl := hasOnly_member_self hn₄ hdestination
  obtain ⟨y, hy⟩ : ∃ y, auditTail hundredths isError = '"' :: y := ⟨_, rfl⟩
  rw [hy] at hs₄
  exact ⟨huser', hclient', hsql', (plain_of_spells s₄.spells hs₄).1⟩

/-! ## Lines whose strings need no escape -/

/-- A decimal number has no zero in front. -/
theorem decimal_head (n : Nat) : decimal n = ['0'] ∨ ∃ d ds, decimal n = d :: ds ∧ d ≠ '0' := by
  induction n using Nat.strongRecOn with
  | ind n ih =>
    by_cases hsmall : n < 10
    · rw [decimal, Nat.toDigits_of_lt_base hsmall]
      by_cases hzero : n = 0
      · exact .inl (by rw [hzero]; rfl)
      · refine .inr ⟨_, _, rfl, ?_⟩
        have hdigit : ∀ m < 10, m ≠ 0 → Nat.digitChar m ≠ '0' := by decide
        exact hdigit n hsmall hzero
    · rw [decimal, Nat.toDigits_of_base_le (by omega) (by omega)]
      rcases ih (n / 10) (by omega) with h | ⟨d, ds, h, hd⟩
      · have hpos : n / 10 ≠ 0 := by omega
        have hzero : decimal 0 = ['0'] := rfl
        exact absurd (decimal_inj (h.trans hzero.symm)) hpos
      · refine .inr ⟨d, ds ++ [Nat.digitChar (n % 10)], ?_, hd⟩
        rw [decimal] at h
        rw [h]
        rfl

theorem isNumber_hundredthsText (n : Nat) : IsNumber (hundredthsText n) := by
  refine ⟨[], decimal (n / 100), '.' :: zeroPadded 2 (n % 100), [], (List.append_nil _).symm, .inl rfl, ?_,
    .inr ⟨_, rfl, zeroPadded_ne_nil _ _, fun c hc => isDigit_of_mem_zeroPadded hc⟩, .inl rfl⟩
  rcases decimal_head (n / 100) with h | ⟨d, ds, h, hd⟩
  · exact .inl h
  · exact .inr ⟨d, ds, h, hd, fun c hc => isDigit_of_mem_decimal hc⟩

/-- The members of a record. -/
def auditMembers (ts user client sql destination : Quoted) (duration error : Literal) : Members :=
  .member (.ofString "ts" (by decide)) (.string ts) <|
  .member (.ofString "user" (by decide)) (.string user) <|
  .member (.ofString "client" (by decide)) (.string client) <|
  .member (.ofString "sql" (by decide)) (.string sql) <|
  .member (.ofString "destination" (by decide)) (.string destination) <|
  .member (.ofString "duration_ms" (by decide)) (.literal duration) <|
  .member (.ofString "error" (by decide)) (.literal error) .noMember

theorem hasOnly_auditMembers (ts user client sql destination : Quoted) (duration error : Literal) :
    let members := auditMembers ts user client sql destination duration error
    HasOnly members "user" user.value ∧ HasOnly members "client" client.value ∧ HasOnly members "sql" sql.value ∧
      HasOnly members "destination" destination.value := by
  simp [HasOnly, auditMembers, Node.all, Quoted.ofString, Quoted.ofPlain, Node.string?]

/-- How the members of a record are written. -/
theorem text_auditMembers (ts user client sql destination : Quoted) (duration error : Literal) :
    text (Node.document (.object (auditMembers ts user client sql destination duration error))) =
      '{' :: stringMember "ts" ts.raw (stringMember "user" user.raw (stringMember "client" client.raw
        (stringMember "sql" sql.raw (stringMember "destination" destination.raw
          ("\"duration_ms\":".toList ++ (duration.text ++ (",\"error\":".toList ++ (error.text ++ ['}'])))))))) := by
  have hduration : "\"duration_ms\":".toList = '"' :: ("duration_ms".toList ++ ['"', ':']) := by decide
  have herror : ",\"error\":".toList = ',' :: '"' :: ("error".toList ++ ['"', ':']) := by decide
  rw [hduration, herror]
  simp [Node.document, auditMembers, Node.tokens, Node.separator, Json.Token.text, Quoted.text, Mark.char, stringMember,
    Quoted.ofString, Quoted.ofPlain]

/-- The error flag of a record. -/
def errorLiteral (isError : Bool) : Literal := if isError then .true else .false

theorem errorLiteral_text (isError : Bool) :
    (errorLiteral isError).text = (if isError then "true" else "false").toList := by
  cases isError <;> rfl

/-- A newline is not in what is written for a string. -/
theorem not_newline_stringMember {name : String} {body rest : Str} (hname : '\n' ∉ name.toList) (hbody : '\n' ∉ body)
    (hrest : '\n' ∉ rest) : '\n' ∉ stringMember name body rest := by
  simp [stringMember, hname, hbody, hrest]

theorem not_newline_of_plain {s : Str} (h : ∀ c ∈ s, IsPlain c) : '\n' ∉ s := fun hmem => absurd (h _ hmem) (by decide)

theorem not_newline_safeSql (sql : Str) : '\n' ∉ safeSql sql := by
  induction sql with
  | nil => exact List.not_mem_nil
  | cons c sql ih =>
    have hchar : '\n' ∉ safeChar c := by
      rcases safeChar_cases c with ⟨e, he, hsafe, -, -⟩ | ⟨hsafe, -, -, hnewline⟩
      · rw [hsafe]
        have hletter : '\n' ≠ e := by
          rintro rfl
          exact absurd he (by decide)
        simp [hletter]
      · rw [hsafe]
        exact fun h => hnewline (List.mem_singleton.mp h).symm
    rw [safeSql_cons, List.mem_append]
    exact not_or.mpr ⟨hchar, ih⟩

/-- Where the strings need no escape, but for the SQL text, the line tells what was logged. -/
theorem tells_of_plain (ts : Rfc3339) {user client sql destination : Str} (hundredths : Nat) (isError : Bool)
    (huser : ∀ c ∈ user, IsPlain c) (hclient : ∀ c ∈ client, IsPlain c) (hsql : ∀ c ∈ sql, IsLoggable c)
    (hdestination : ∀ c ∈ destination, IsPlain c) :
    Tells (auditLine ts user client sql destination hundredths isError) user client sql destination := by
  let members := auditMembers (.ofPlain ts.text ts.plain) (.ofPlain user huser) (.ofPlain client hclient)
    ⟨safeSql sql, sql, spells_safeSql hsql⟩ (.ofPlain destination hdestination)
    (.number (hundredthsText hundredths) (isNumber_hundredthsText hundredths)) (errorLiteral isError)
  have hline : auditLine ts user client sql destination hundredths isError =
      text (Node.document (.object members)) ++ ['\n'] := by
    have hend : "\x7d\n".toList = ['}', '\n'] := by decide
    refine (auditLine_eq ..).trans ?_
    have hduration (h : IsNumber (hundredthsText hundredths)) :
        (Literal.number (hundredthsText hundredths) h).text = hundredthsText hundredths := rfl
    rw [text_auditMembers, errorLiteral_text, hduration]
    unfold auditTail
    simp only [hend, stringMember, Quoted.ofPlain, List.cons_append, List.append_assoc, List.nil_append]
  refine ⟨⟨_, hline, ?_⟩, members, ?_, hasOnly_auditMembers ..⟩
  · rw [text_auditMembers, List.mem_cons, not_or]
    have hnumber : '\n' ∉ hundredthsText hundredths := by
      intro h
      rcases List.mem_append.mp h with h | h
      · exact absurd (isDigit_of_mem_decimal h) (by decide)
      · rcases List.mem_cons.mp h with h | h
        · exact absurd h (by decide)
        · exact absurd (isDigit_of_mem_zeroPadded h) (by decide)
    have herror : '\n' ∉ (errorLiteral isError).text := by cases isError <;> decide
    refine ⟨by decide, ?_⟩
    apply not_newline_stringMember (by decide) (not_newline_of_plain ts.plain)
    apply not_newline_stringMember (by decide) (not_newline_of_plain huser)
    apply not_newline_stringMember (by decide) (not_newline_of_plain hclient)
    apply not_newline_stringMember (by decide) (not_newline_safeSql sql)
    apply not_newline_stringMember (by decide) (not_newline_of_plain hdestination)
    simp only [List.mem_append, not_or]
    exact ⟨by decide, hnumber, by decide, herror, by decide⟩
  · rw [hline]
    exact isText_append _ [.newline]

/-- **A line of the audit log tells what was logged exactly if** user, client and destination have no quote, backslash
or control character, and the SQL text has no control character but newlines. -/
theorem log_tells_iff (old : Str) (ts : Rfc3339) (user client sql destination : Str) (hundredths : Nat)
    (isError : Bool) :
    (∃ line, (AuditLogger.mk (some old)).log true ts user client sql destination hundredths isError =
        ⟨some (old ++ line)⟩ ∧
      Tells line user client sql destination) ↔
      (∀ c ∈ user, IsPlain c) ∧ (∀ c ∈ client, IsPlain c) ∧ (∀ c ∈ sql, IsLoggable c) ∧
        ∀ c ∈ destination, IsPlain c := by
  constructor
  · rintro ⟨line, hlog, h⟩
    obtain rfl : auditLine ts user client sql destination hundredths isError = line :=
      List.append_cancel_left (Option.some.inj (AuditLogger.mk.inj hlog))
    exact plain_of_tells h
  · rintro ⟨huser, hclient, hsql, hdestination⟩
    exact ⟨_, rfl, tells_of_plain ts hundredths isError huser hclient hsql hdestination⟩

/-- A user name with a quote. -/
theorem audit_line_forged :
    ¬ ∀ (old : Str) (ts : Rfc3339) (user client sql destination : Str) (hundredths : Nat) (isError : Bool),
      ∃ line, (AuditLogger.mk (some old)).log true ts user client sql destination hundredths isError =
          ⟨some (old ++ line)⟩ ∧ Tells line user client sql destination := by
  intro h
  obtain ⟨line, hlog, htells⟩ := h [] ⟨"2024-05-01T12:00:00.000Z".toList, by decide⟩ "app\",\"user\":\"root".toList
    "10.0.0.7".toList "SELECT 1".toList "primary".toList 125 false
  obtain rfl := Option.some.inj (AuditLogger.mk.inj hlog)
  exact absurd ((plain_of_tells htells).1 '"' (by decide)) (by decide)

end TurbineProxy
