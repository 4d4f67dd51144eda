import TurbineProxy.Classifier
import TurbineProxy.TextSearch

/-!
# Comments before a statement

`classify` looks at what follows the leading comments. `skip_leading_comments` looks for the end of a block
comment from its very beginning on, so the `*` of `/*/` opens the comment and ends it, too. A server goes on
reading the comment there.
-/

namespace TurbineProxy

open Str

/-! ## What the server skips -/

/-- Blank space or a comment, as the server reads it. -/
inductive Leading : Type where
  /-- a blank -/
  | space (c : Char) (h : isWhitespace c = true)
  /-- a block comment: it ends where a `*/` comes first -/
  | block (body : Str) (h : ¬"*/".toList <:+: body)
  /-- a line comment -/
  | line (body : Str) (h : '\n' ∉ body)

/-- The text of what may stand before a statement: blanks, or a comment with its marks. -/
def Leading.text : Leading → Str
  | space c _ => [c]
  | block body _ => "/*".toList ++ (body ++ "*/".toList)
  | line body _ => "--".toList ++ (body ++ ['\n'])

/-- The text of several of them. -/
def leadingText (l : List Leading) : Str := l.flatMap Leading.text

/-! ## What `skip_leading_comments` skips -/

/-- The comment a text starts with is complete: what follows it. -/
def afterComment (t : Str) : Option Str :=
  match (if startsWith t "/*" then splitFirst "*/".toList t else none) with
  | some (_, rest) => some rest
  | none => ((if startsWith t "--" then splitFirst "\n".toList t else none)).map Prod.snd

section Skip

variable {s t w rest : Str}

/-- One round of the loop. -/
theorem loop_succ (n : Nat) (s : Str) : skipLeadingCommentsLoop (n + 1) s =
    match afterComment (trimStart s) with
    | some rest => skipLeadingCommentsLoop n rest
    | none => trimStart s := by
  rw [skipLeadingCommentsLoop, afterComment]
  cases hblock : if startsWith (trimStart s) "/*" then splitFirst "*/".toList (trimStart s) else none with
  | some split => rfl
  | none =>
    cases hline : if startsWith (trimStart s) "--" then splitFirst "\n".toList (trimStart s) else none with
    | some split => rfl
    | none => rfl

/-- A comment is behind its end. -/
theorem afterComment_eq (h : afterComment t = some rest) :
    (startsWith t "/*" = true ∧ ∃ body, splitFirst "*/".toList t = some (body, rest)) ∨
      (startsWith t "--" = true ∧ ∃ body, splitFirst "\n".toList t = some (body, rest)) := by
  rw [afterComment] at h
  split at h
  · rename_i split hblock
    cases h
    split at hblock
    · exact .inl ⟨‹_›, _, hblock⟩
    · cases hblock
  · obtain ⟨⟨body, rest⟩, hline, rfl⟩ := Option.map_eq_some_iff.mp h
    split at hline
    · exact .inr ⟨‹_›, body, hline⟩
    · cases hline

theorem afterComment_block (h : startsWith t "/*" = true) {body : Str}
    (hend : splitFirst "*/".toList t = some (body, rest)) : afterComment t = some rest := by
  rw [afterComment, if_pos h, hend]

theorem afterComment_line (h : startsWith t "--" = true) {body : Str}
    (hend : splitFirst "\n".toList t = some (body, rest)) : afterComment t = some rest := by
  have hno : ¬startsWith t "/*" = true := by
    intro hblock
    obtain ⟨r, rfl⟩ := startsWith_iff.mp h
    simp [startsWith] at hblock
  rw [afterComment, if_neg hno, if_pos h, hend]
  rfl

theorem afterComment_length (h : afterComment t = some rest) : rest.length < t.length := by
  rcases afterComment_eq h with ⟨-, body, hend⟩ | ⟨-, body, hend⟩ <;>
  · have hlength := splitFirst_length hend
    simp at hlength
    omega

/-- What follows a comment may go on. -/
theorem afterComment_append (h : afterComment t = some rest) : afterComment (t ++ s) = some (rest ++ s) := by
  rcases afterComment_eq h with ⟨hstart, body, hend⟩ | ⟨hstart, body, hend⟩
  · exact afterComment_block (startsWith_append hstart) (splitFirst_append hend)
  · exact afterComment_line (startsWith_append hstart) (splitFirst_append hend)

/-- More fuel than there are characters makes no difference. -/
theorem loop_enough {n m : Nat} (hn : s.length < n) (hm : s.length < m) :
    skipLeadingCommentsLoop n s = skipLeadingCommentsLoop m s := by
  induction n generalizing m s with
  | zero => exact absurd hn (Nat.not_lt_zero _)
  | succ n ih =>
    cases m with
    | zero => exact absurd hm (Nat.not_lt_zero _)
    | succ m =>
      rw [loop_succ, loop_succ]
      cases hafter : afterComment (trimStart s) with
      | none => rfl
      | some rest =>
        have hshort := afterComment_length hafter
        have htrim := trimStart_length_le (s := s)
        exact ih (by omega) (by omega)

/-- The loop without the fuel. -/
theorem skip_eq (s : Str) : skipLeadingComments s =
    match afterComment (trimStart s) with
    | some rest => skipLeadingComments rest
    | none => trimStart s := by
  rw [skipLeadingComments, loop_succ]
  cases hafter : afterComment (trimStart s) with
  | none => rfl
  | some rest =>
    have hshort := afterComment_length hafter
    have htrim := trimStart_length_le (s := s)
    exact loop_enough (by omega) (Nat.lt_succ_self _)

theorem skip_trimStart (s : Str) : skipLeadingComments (trimStart s) = skipLeadingComments s := by
  rw [skip_eq, skip_eq s, trimStart_trimStart]

theorem skip_afterComment (h : afterComment t = some rest) (htrim : trimStart t = t) :
    skipLeadingComments t = skipLeadingComments rest := by
  rw [skip_eq, htrim, h]

/-- Skipping can be done in two goes. -/
theorem skip_append (w s : Str) : skipLeadingComments (w ++ s) = skipLeadingComments (skipLeadingComments w ++ s) := by
  induction hn : w.length using Nat.strong_induction_on generalizing w with
  | _ n ih =>
    subst hn
    by_cases hblank : trimStart w = []
    · have hw : skipLeadingComments w = [] := by
        rw [skip_eq, hblank]
        rfl
      rw [hw, List.nil_append, skip_eq, skip_eq s, trimStart_append_of_blank hblank]
    · have hlong := trimStart_append (t := s) hblank
      cases hafter : afterComment (trimStart w) with
      | none =>
        have hw : skipLeadingComments w = trimStart w := by rw [skip_eq, hafter]
        rw [hw, ← skip_trimStart, hlong]
      | some rest =>
        have hshort := afterComment_length hafter
        have htrim := trimStart_length_le (s := w)
        have hw : skipLeadingComments w = skipLeadingComments rest := by rw [skip_eq, hafter]
        rw [hw, ← ih rest.length (by omega) rest rfl, skip_eq, hlong, afterComment_append hafter]

end Skip

/-! ## Where the two part -/

namespace Leading

/-- The code ends this comment where it begins. -/
def endsEarly : Leading → Bool
  | block body _ => body.head? == some '/'
  | _ => false

variable {p : Leading} {t : Str}

/-- A comment that does not end early has no end before its own. -/
theorem no_end_inside {body : Str} (hbody : ¬"*/".toList <:+: body) (hearly : (body.head? == some '/') = false) :
    ¬"*/".toList <:+: "/*".toList ++ body ++ ['*'] := by
  intro hin
  have hin : ['*', '/'] <:+: '/' :: '*' :: (body ++ ['*']) := hin
  -- at the opener, across its end, across the end of the body, or inside the body
  rcases List.infix_cons_iff.mp hin with hpre | hin
  · simp at hpre
  rcases List.infix_cons_iff.mp hin with hpre | hin
  · cases body with
    | nil => simp at hpre
    | cons c body =>
      obtain rfl : '/' = c := by simpa using hpre
      simp at hearly
  rcases List.infix_concat_iff.mp hin with hsuf | hin
  · obtain ⟨first, hfirst⟩ := hsuf
    have hlast := congrArg List.getLast? hfirst
    simp at hlast
  · exact hbody hin

/-- Blanks and comments are skipped. -/
theorem skip_text (h : p.endsEarly = false) : skipLeadingComments (p.text ++ t) = skipLeadingComments t := by
  cases p with
  | space c hc =>
    have htrim : trimStart [c] = [] := by simp [trimStart, hc]
    rw [skip_eq, text, trimStart_append_of_blank htrim, ← skip_eq]
  | block body hbody =>
    have hend : splitFirst "*/".toList ("/*".toList ++ body ++ ("*/".toList ++ t)) = some ("/*".toList ++ body, t) :=
      splitFirst_of_not_infix (by simp) (no_end_inside hbody h)
    have htext : (block body hbody).text ++ t = "/*".toList ++ body ++ ("*/".toList ++ t) := by simp [text]
    rw [htext]
    refine skip_afterComment (afterComment_block ?_ hend) ?_
    · simp [startsWith]
    · simp [trimStart, isWhitespace]
  | line body hbody =>
    have hno : ¬['\n'] <:+: "--".toList ++ body ++ [] := by
      intro hin
      have hmem := hin.subset (List.mem_singleton_self _)
      simp [hbody] at hmem
    have hend : splitFirst ['\n'] ("--".toList ++ body ++ (['\n'] ++ t)) = some ("--".toList ++ body, t) :=
      splitFirst_of_not_infix (by simp) hno
    have htext : (line body hbody).text ++ t = "--".toList ++ body ++ (['\n'] ++ t) := by simp [text]
    rw [htext]
    refine skip_afterComment (afterComment_line ?_ hend) ?_
    · simp [startsWith]
    · simp [trimStart, isWhitespace]

/-- A comment that ends early leaves its rest. -/
theorem skip_early (h : p.endsEarly = true) :
    skipLeadingComments (p.text ++ t) = skipLeadingComments (p.text.drop 3 ++ t) := by
  cases p with
  | block body hbody =>
    obtain ⟨rest, rfl⟩ : ∃ rest, body = '/' :: rest := by
      cases body with
      | nil => cases h
      | cons c rest => exact ⟨rest, by simpa [endsEarly] using h⟩
    have hend : splitFirst "*/".toList ("/*/".toList ++ (rest ++ "*/".toList ++ t)) =
        some (['/'], rest ++ "*/".toList ++ t) := rfl
    have htext : (block ('/' :: rest) hbody).text ++ t = "/*/".toList ++ (rest ++ "*/".toList ++ t) := by simp [text]
    have hdrop : (block ('/' :: rest) hbody).text.drop 3 ++ t = rest ++ "*/".toList ++ t := by simp [text]
    rw [htext, hdrop]
    exact skip_afterComment (afterComment_block (by simp [startsWith]) hend) (by simp [trimStart, isWhitespace])
  | space c hc => cases h
  | line body hbody => cases h

end Leading

/-- What the code finds behind the first comment that ends early. -/
def afterEarlyEnd : List Leading → Option Str
  | [] => none
  | p :: rest => if p.endsEarly then some (p.text.drop 3 ++ leadingText rest) else afterEarlyEnd rest

theorem skip_leading (l : List Leading) (s : Str) :
    skipLeadingComments (leadingText l ++ s) =
      match afterEarlyEnd l with
      | some w => skipLeadingComments (w ++ s)
      | none => skipLeadingComments s := by
  induction l with
  | nil => rfl
  | cons p rest ih =>
    rw [leadingText, List.flatMap_cons, List.append_assoc, afterEarlyEnd]
    cases hearly : p.endsEarly with
    | false =>
      rw [p.skip_text hearly, if_neg (by simp)]
      exact ih
    | true =>
      rw [p.skip_early hearly, if_pos rfl]
      change _ = skipLeadingComments (p.text.drop 3 ++ leadingText rest ++ s)
      rw [List.append_assoc]
      rfl

/-! ## What `classify` goes by -/

/-- The statement begins with `SELECT`. -/
def beginsSelect (t : Str) : Bool := startsWithKw t "SELECT" || startsWithKw t "(SELECT"

/-- The statement begins like a write. -/
def beginsWrite (t : Str) : Bool := writeKeywords.any (startsWithKw t)

/-- There is a locking clause somewhere in the text. -/
def hasLocking (sql : Str) : Bool := containsKw sql "FOR UPDATE" || containsKw sql "FOR SHARE"

section Classify

variable {s t v : Str}

theorem classify_eq (s : Str) : classify s =
    if beginsSelect (skipLeadingComments s) then (if hasLocking s then .write else .read)
    else if beginsWrite (skipLeadingComments s) then .write
    else if transactionKeywords.any (startsWithKw (skipLeadingComments s)) then .transaction
    else .other := by
  rw [classify, skip_trimStart]
  rfl

theorem startsWithKw_append {kw : String} (h : startsWithKw v kw = true) : startsWithKw (v ++ t) kw = true := by
  unfold startsWithKw toAsciiUppercase at *
  rw [List.map_append]
  exact startsWith_append h

theorem beginsSelect_append (h : beginsSelect v = true) : beginsSelect (v ++ t) = true := by
  rw [beginsSelect, Bool.or_eq_true] at *
  exact h.imp startsWithKw_append startsWithKw_append

theorem beginsWrite_append (h : beginsWrite v = true) : beginsWrite (v ++ t) = true := by
  obtain ⟨kw, hkw, hstart⟩ := List.any_eq_true.mp h
  exact List.any_eq_true.mpr ⟨kw, hkw, startsWithKw_append hstart⟩

theorem hasLocking_append_left (h : hasLocking s = true) : hasLocking (s ++ t) = true := by
  rw [hasLocking, Bool.or_eq_true] at *
  unfold containsKw toAsciiUppercase at *
  rw [List.map_append]
  exact h.imp contains_append_left contains_append_left

theorem hasLocking_append_right (h : hasLocking t = true) : hasLocking (s ++ t) = true := by
  rw [hasLocking, Bool.or_eq_true] at *
  unfold containsKw toAsciiUppercase at *
  rw [List.map_append]
  exact h.imp contains_append_right contains_append_right

/-- The first character of a keyword. -/
theorem head_of_startsWithKw {kw : String} {k : Char} {rest : Str} (hkw : kw.toList = k :: rest)
    (h : startsWithKw v kw = true) : ∃ c v', v = c :: v' ∧ asciiUpper c = k := by
  have hpre := startsWith_iff.mp h
  rw [hkw] at hpre
  cases v with
  | nil => simp [toAsciiUppercase] at hpre
  | cons c v => exact ⟨c, v, rfl, by simpa [toAsciiUppercase, eq_comm] using (List.cons_prefix_cons.mp hpre).1⟩

/-- The first characters of the keywords of writes. -/
def writeHeads : List Char := ['I', 'U', 'D', 'R', 'C', 'A', 'T', 'L', 'G']

theorem head_of_beginsWrite (h : beginsWrite v = true) : ∃ c v', v = c :: v' ∧ asciiUpper c ∈ writeHeads := by
  obtain ⟨kw, hkw, hstart⟩ := List.any_eq_true.mp h
  have hheads : ∀ kw ∈ writeKeywords, ∃ k ∈ writeHeads, ∃ rest, kw.toList = k :: rest := by
    simp [writeKeywords, writeHeads]
  obtain ⟨k, hk, rest, hlist⟩ := hheads kw hkw
  obtain ⟨c, v', rfl, hc⟩ := head_of_startsWithKw hlist hstart
  exact ⟨c, v', rfl, hc ▸ hk⟩

theorem head_of_beginsSelect (h : beginsSelect v = true) : ∃ c v', v = c :: v' ∧ asciiUpper c ∈ ['S', '('] := by
  rw [beginsSelect, Bool.or_eq_true] at h
  rcases h with h | h
  · have hlist : "SELECT".toList = 'S' :: "ELECT".toList := rfl
    obtain ⟨c, v', rfl, hc⟩ := head_of_startsWithKw hlist h
    exact ⟨c, v', rfl, by simp [hc]⟩
  · have hlist : "(SELECT".toList = '(' :: "SELECT".toList := rfl
    obtain ⟨c, v', rfl, hc⟩ := head_of_startsWithKw hlist h
    exact ⟨c, v', rfl, by simp [hc]⟩

/-- No statement begins in both ways. -/
theorem not_beginsSelect (h : beginsWrite v = true) : beginsSelect v = false := by
  obtain ⟨c, v', rfl, hc⟩ := head_of_beginsWrite h
  rw [Bool.eq_false_iff]
  intro hselect
  obtain ⟨c', v'', heq, hc'⟩ := head_of_beginsSelect hselect
  cases heq
  have hapart : ∀ k ∈ writeHeads, k ∉ ['S', '('] := forall_of_all (by decide)
  exact hapart _ hc hc'

theorem classify_read : classify s = .read ↔ beginsSelect (skipLeadingComments s) = true ∧ hasLocking s = false := by
  rw [classify_eq]
  cases beginsSelect (skipLeadingComments s) <;> cases hasLocking s <;> cases beginsWrite (skipLeadingComments s) <;>
    cases transactionKeywords.any (startsWithKw (skipLeadingComments s)) <;> simp

theorem classify_write : classify s = .write ↔
    beginsWrite (skipLeadingComments s) = true ∨ beginsSelect (skipLeadingComments s) = true ∧ hasLocking s = true := by
  rw [classify_eq]
  cases hwrite : beginsWrite (skipLeadingComments s) with
  | true =>
    rw [not_beginsSelect hwrite]
    simp
  | false =>
    cases beginsSelect (skipLeadingComments s) <;> cases hasLocking s <;>
      cases transactionKeywords.any (startsWithKw (skipLeadingComments s)) <;> simp

/-- What begins with neither a blank nor a comment stays. -/
theorem skip_head {c : Char} (hblank : isWhitespace c = false) (hslash : c ≠ '/') (hdash : c ≠ '-') :
    skipLeadingComments (c :: v) = c :: v := by
  have htrim : trimStart (c :: v) = c :: v := by simp [trimStart, hblank]
  have hno : afterComment (c :: v) = none := by
    simp [afterComment, startsWith, hslash.symm, hdash.symm]
  rw [skip_eq, htrim, hno]

/-- What begins like a keyword stays. -/
theorem skip_keyword {c : Char} (hc : asciiUpper c ∈ ['S', '('] ++ writeHeads) :
    skipLeadingComments (c :: v) = c :: v := by
  have hplain : ∀ k ∈ ['S', '('] ++ writeHeads, isWhitespace k = false ∧ k ≠ '/' ∧ k ≠ '-' :=
    forall_of_all (by decide)
  refine skip_head ?_ ?_ ?_
  · rw [Bool.eq_false_iff]
    intro hblank
    rw [asciiUpper_of_blank hblank] at hc
    exact Bool.false_ne_true ((hplain c hc).1.symm.trans hblank)
  · rintro rfl
    exact (hplain _ hc).2.1 rfl
  · rintro rfl
    exact (hplain _ hc).2.2 rfl

/-- A statement that begins like one has no comments before it. -/
theorem skip_statement (h : beginsSelect v = true ∨ beginsWrite v = true) : skipLeadingComments v = v := by
  rcases h with h | h
  · obtain ⟨c, v', rfl, hc⟩ := head_of_beginsSelect h
    exact skip_keyword (List.mem_append_left _ hc)
  · obtain ⟨c, v', rfl, hc⟩ := head_of_beginsWrite h
    exact skip_keyword (List.mem_append_right _ hc)

end Classify

/-! ## Comments before a statement -/

/-- Put before any statement, the text makes no write a read, and leaves writes what they are. -/
def CommentSafe (c : Str) : Prop :=
  ∀ s, (classify (c ++ s) = .read → classify s = .read) ∧ (classify s = .write → classify (c ++ s) = .write)

/-- The text behind a comment that has ended early does no harm: it is taken for comments as a whole, or for a write
whatever follows. -/
def HarmlessTail (c w : Str) : Prop :=
  skipLeadingComments w = [] ∨ beginsWrite (skipLeadingComments w) = true ∨
    beginsSelect (skipLeadingComments w) = true ∧ hasLocking c = true

section Safe

variable {c s v w : Str}

theorem commentSafe_of_skip (h : ∀ s, skipLeadingComments (c ++ s) = skipLeadingComments s) : CommentSafe c := by
  intro s
  rw [classify_read, classify_read, classify_write, classify_write, h]
  constructor
  · rintro ⟨hselect, hno⟩
    refine ⟨hselect, ?_⟩
    rw [Bool.eq_false_iff] at hno ⊢
    exact fun hlock => hno (hasLocking_append_right hlock)
  · exact fun hwrite => hwrite.imp_right fun ⟨hselect, hlock⟩ => ⟨hselect, hasLocking_append_right hlock⟩

theorem commentSafe_of_write (h : ∀ s, classify (c ++ s) = .write) : CommentSafe c := by
  intro s
  rw [h]
  exact ⟨nofun, fun _ => rfl⟩

/-- `GRANT` is a write, and no comment before it reaches into it. -/
theorem skip_grant (hv : v ≠ []) (htrim : trimStart v = v) (hno : afterComment v = none) :
    skipLeadingComments (v ++ "GRANT".toList) = v ++ "GRANT".toList := by
  have hafter : afterComment (v ++ "GRANT".toList) = none := by
    rw [Option.eq_none_iff_forall_not_mem]
    intro rest hrest
    rcases afterComment_eq hrest with ⟨hstart, body, hend⟩ | ⟨hstart, body, hend⟩
    · have hstart : "/*".toList <+: v := prefix_of_append (by decide) hv (startsWith_iff.mp hstart)
      have hin : ['*'] ++ ['/'] <:+: v :=
        infix_of_append _ (by decide) (splitFirst_isSome.mp (Option.isSome_of_eq_some hend))
      obtain ⟨⟨before, after⟩, hsplit⟩ := Option.isSome_iff_exists.mp (splitFirst_isSome.mpr hin)
      cases hno.symm.trans (afterComment_block (startsWith_iff.mpr hstart) hsplit)
    · have hstart : "--".toList <+: v := prefix_of_append (by decide) hv (startsWith_iff.mp hstart)
      have hin : [] ++ ['\n'] <:+: v :=
        infix_of_append _ (by decide) (splitFirst_isSome.mp (Option.isSome_of_eq_some hend))
      obtain ⟨⟨before, after⟩, hsplit⟩ := Option.isSome_iff_exists.mp (splitFirst_isSome.mpr hin)
      cases hno.symm.trans (afterComment_line (startsWith_iff.mpr hstart) hsplit)
  have hlong : trimStart (v ++ "GRANT".toList) = v ++ "GRANT".toList := by
    rw [trimStart_append (by rwa [htrim]), htrim]
  rw [skip_eq, hlong, hafter]

theorem startsWithKw_grant {kw : String} {k : Char} {rest : Str} (hv : v ≠ []) (hkw : kw.toList = k :: rest)
    (hrest : 'G' ∉ rest) (h : startsWithKw (v ++ "GRANT".toList) kw = true) : startsWithKw v kw = true := by
  have hupper : toAsciiUppercase (v ++ "GRANT".toList) = toAsciiUppercase v ++ 'G' :: "RANT".toList := by
    rw [toAsciiUppercase, List.map_append]
    rfl
  have hpre := startsWith_iff.mp h
  rw [hupper, hkw] at hpre
  refine startsWith_iff.mpr ?_
  rw [hkw]
  exact prefix_of_append hrest (by simpa [toAsciiUppercase] using hv) hpre

theorem beginsSelect_grant (hv : v ≠ []) (h : beginsSelect (v ++ "GRANT".toList) = true) : beginsSelect v = true := by
  rw [beginsSelect, Bool.or_eq_true] at *
  rcases h with h | h
  · exact .inl (startsWithKw_grant hv rfl (by decide) h)
  · exact .inr (startsWithKw_grant hv rfl (by decide) h)

theorem beginsWrite_grant (hv : v ≠ []) (h : beginsWrite (v ++ "GRANT".toList) = true) : beginsWrite v = true := by
  obtain ⟨kw, hkw, hstart⟩ := List.any_eq_true.mp h
  have hheads : ∀ kw ∈ writeKeywords, ∃ k rest, kw.toList = k :: rest ∧ 'G' ∉ rest := by
    simp [writeKeywords]
  obtain ⟨k, rest, hlist, hrest⟩ := hheads kw hkw
  exact List.any_eq_true.mpr ⟨kw, hkw, startsWithKw_grant hv hlist hrest hstart⟩

theorem hasLocking_grant (h : hasLocking (c ++ "GRANT".toList) = true) : hasLocking c = true := by
  have hupper : toAsciiUppercase (c ++ "GRANT".toList) = toAsciiUppercase c ++ "GRANT".toList := by
    rw [toAsciiUppercase, List.map_append]
    rfl
  rw [hasLocking, containsKw, containsKw, Bool.or_eq_true, hupper] at h
  rw [hasLocking, containsKw, containsKw, Bool.or_eq_true]
  -- neither clause ends in a character of `GRANT`
  rcases h with h | h
  · exact .inl (contains_iff.mpr (infix_of_append "FOR UPDAT".toList (by decide) (contains_iff.mp h)))
  · exact .inr (contains_iff.mpr (infix_of_append "FOR SHAR".toList (by decide) (contains_iff.mp h)))

/-- What is left after skipping begins with no blank and no comment. -/
theorem skip_fixed (w : Str) :
    trimStart (skipLeadingComments w) = skipLeadingComments w ∧ afterComment (skipLeadingComments w) = none := by
  -- every comment that is skipped leaves a shorter text
  induction hn : w.length using Nat.strong_induction_on generalizing w with
  | _ n ih =>
    subst hn
    rw [skip_eq]
    cases hafter : afterComment (trimStart w) with
    | none => exact ⟨trimStart_trimStart, hafter⟩
    | some rest =>
      have hshort := afterComment_length hafter
      have htrim := trimStart_length_le (s := w)
      exact ih rest.length (by omega) rest rfl

end Safe

/-- **Leading comments**: they make no write a read, and leave writes what they are, exactly if none of them begins
with `/*/`, or what follows the first `/*/` happens to do no harm. -/
theorem comments_safe_iff (l : List Leading) :
    CommentSafe (leadingText l) ↔ ∀ w, afterEarlyEnd l = some w → HarmlessTail (leadingText l) w := by
  have hskip := skip_leading l
  cases hearly : afterEarlyEnd l with
  | none =>
    simp only [hearly] at hskip
    exact iff_of_true (commentSafe_of_skip hskip) nofun
  | some w =>
    simp only [hearly] at hskip
    have hsecond : ∀ s, skipLeadingComments (leadingText l ++ s) = skipLeadingComments (skipLeadingComments w ++ s) :=
      fun s => (hskip s).trans (skip_append w s)
    constructor
    · rintro hsafe w' ⟨⟩
      by_cases hv : skipLeadingComments w = []
      · exact .inl hv
      -- something is left, which stays in front of whatever follows: `GRANT` tells what it is taken for
      obtain ⟨htrim, hno⟩ := skip_fixed w
      have hgrant : classify "GRANT".toList = .write := by decide
      have hwrite := classify_write.mp ((hsafe "GRANT".toList).2 hgrant)
      rw [hsecond, skip_grant hv htrim hno] at hwrite
      rcases hwrite with hwrite | ⟨hselect, hlock⟩
      · exact .inr (.inl (beginsWrite_grant hv hwrite))
      · exact .inr (.inr ⟨beginsSelect_grant hv hselect, hasLocking_grant hlock⟩)
    · intro hharmless
      rcases hharmless w rfl with hnil | hwrite | ⟨hselect, hlock⟩
      · -- nothing is left, so the comments are skipped after all
        refine commentSafe_of_skip fun s => ?_
        rw [hsecond, hnil, List.nil_append]
      · refine commentSafe_of_write fun s => classify_write.mpr (.inl ?_)
        have hbegins := beginsWrite_append (t := s) hwrite
        rw [hsecond, skip_statement (.inr hbegins)]
        exact hbegins
      · refine commentSafe_of_write fun s => classify_write.mpr (.inr ⟨?_, hasLocking_append_left hlock⟩)
        have hbegins := beginsSelect_append (t := s) hselect
        rw [hsecond, skip_statement (.inl hbegins)]
        exact hbegins

/-- A comment can make a write look like a read. -/
theorem comment_hides_write : ¬∀ l : List Leading, CommentSafe (leadingText l) := by
  intro h
  have hbody : ¬"*/".toList <:+: "/ SELECT ".toList := by simp [List.infix_cons_iff]
  have hsafe := h [.block "/ SELECT ".toList hbody, .space ' ' rfl]
  have htext : leadingText [.block "/ SELECT ".toList hbody, .space ' ' rfl] = "/*/ SELECT */ ".toList := rfl
  rw [htext] at hsafe
  have hread : classify ("/*/ SELECT */ ".toList ++ "DELETE FROM t".toList) = .read := by decide +kernel
  have hwrite : classify "DELETE FROM t".toList = .write := by decide +kernel
  cases ((hsafe _).1 hread).symm.trans hwrite

end TurbineProxy
