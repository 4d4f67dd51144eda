import TurbineProxy.SqlLexer

/-!
# Boundaries between lexemes

A lexeme does not depend on what comes behind it, as long as that is apart from it: the lexer reads two texts in a row
as it reads each of them (`Lexes.append`). At the end of the first there may be a lexeme that goes on, a word or a
comment; only that one is read anew (`Lexes.cut`).
-/

namespace TurbineProxy

open Str

/-! ## Texts that go on -/

section Splits

variable {nests : Nat → Bool} {escapes : Bool} {q : Char} {depth : Nat} {a b t r : Str}

/-- A comment that ends, ends there. -/
theorem splitBlock_append (h : splitBlock nests depth a = some (t, r)) :
    splitBlock nests depth (a ++ b) = some (t, r ++ b) := by
  fun_induction splitBlock nests depth a generalizing t with
  | case1 | case2 => cases h
  | case3 c d rest hend =>
    cases h
    simp only [List.cons_append, splitBlock, if_pos hend]
  | case4 c d rest hend depth ih =>
    obtain ⟨⟨t', r'⟩, hrest, heq⟩ := Option.map_eq_some_iff.mp h
    cases heq
    simp only [List.cons_append, splitBlock, if_pos hend]
    exact Option.map_eq_some_iff.mpr ⟨_, ih hrest, rfl⟩
  | case5 depth c d rest hend hnest ih =>
    obtain ⟨⟨t', r'⟩, hrest, heq⟩ := Option.map_eq_some_iff.mp h
    cases heq
    simp only [List.cons_append, splitBlock, if_neg hend, if_pos hnest]
    exact Option.map_eq_some_iff.mpr ⟨_, ih hrest, rfl⟩
  | case6 depth c d rest hend hnest ih =>
    obtain ⟨⟨t', r'⟩, hrest, heq⟩ := Option.map_eq_some_iff.mp h
    cases heq
    simp only [List.cons_append, splitBlock, if_neg hend, if_neg hnest]
    exact Option.map_eq_some_iff.mpr ⟨_, ih hrest, rfl⟩

/-- Without a slash no comment ends. -/
theorem splitBlock_of_tail (h : '/' ∉ a.tail) : splitBlock nests depth a = none := by
  fun_induction splitBlock nests depth a with
  | case1 | case2 => rfl
  | case3 c d rest hend | case4 c d rest hend =>
    rw [hend.2] at h
    exact absurd (List.mem_cons_self ..) h
  | case5 depth c d rest hend hnest ih =>
    rw [ih fun hmem => h (List.mem_cons_of_mem d (List.mem_of_mem_tail hmem))]
    rfl
  | case6 depth c d rest hend hnest ih =>
    rw [ih fun hmem => h (List.mem_cons_of_mem d hmem)]
    rfl

theorem splitBlock_none (h : splitBlock nests depth a = none) (hb : '/' ∉ b) :
    splitBlock nests depth (a ++ b) = none := by
  fun_induction splitBlock nests depth a with
  | case1 => exact splitBlock_of_tail fun hmem => hb (List.mem_of_mem_tail hmem)
  | case2 depth c => exact splitBlock_of_tail hb
  | case3 => cases h
  | case4 c d rest hend depth ih =>
    simp only [List.cons_append, splitBlock, if_pos hend, ih (Option.map_eq_none_iff.mp h), Option.map_none]
  | case5 depth c d rest hend hnest ih =>
    simp only [List.cons_append, splitBlock, if_neg hend, if_pos hnest, ih (Option.map_eq_none_iff.mp h),
      Option.map_none]
  | case6 depth c d rest hend hnest ih =>
    have hrest := ih (Option.map_eq_none_iff.mp h)
    simp only [List.cons_append] at hrest ⊢
    simp only [splitBlock, if_neg hend, if_neg hnest, hrest, Option.map_none]

/-- A quote closes the text, unless there is another one behind it. -/
theorem splitQuote_append (h : splitQuote escapes q a = some (t, r)) (hb : r ≠ [] ∨ b.head? ≠ some q) :
    splitQuote escapes q (a ++ b) = some (t, r ++ b) := by
  fun_induction splitQuote escapes q a generalizing t with
  | case1 | case3 => cases h
  | case2 =>
    cases h
    cases b with
    | nil => simp [splitQuote]
    | cons d b =>
      have hd : d ≠ q := fun heq => (hb.resolve_left fun hr => hr rfl) (congrArg some heq)
      simp [splitQuote, hd]
  | case4 rest ih =>
    obtain ⟨⟨t', r'⟩, hrest, heq⟩ := Option.map_eq_some_iff.mp h
    cases heq
    simp only [List.cons_append, splitQuote, if_true, ih hrest, Option.map_some]
  | case5 d rest hd =>
    cases h
    simp only [List.cons_append, splitQuote, if_true, if_neg hd]
  | case6 c d rest hq hescape ih =>
    obtain ⟨⟨t', r'⟩, hrest, heq⟩ := Option.map_eq_some_iff.mp h
    cases heq
    simp only [List.cons_append, splitQuote, if_neg hq, if_pos hescape, ih hrest, Option.map_some]
  | case7 c d rest hq hescape ih =>
    obtain ⟨⟨t', r'⟩, hrest, heq⟩ := Option.map_eq_some_iff.mp h
    cases heq
    have hrest' := ih hrest
    simp only [List.cons_append] at hrest' ⊢
    simp only [splitQuote, if_neg hq, if_neg hescape, hrest', Option.map_some]

/-- It is the quote that closes it. -/
theorem splitQuote_last (h : splitQuote escapes q a = some (t, r)) : t.getLast? = some q := by
  fun_induction splitQuote escapes q a generalizing t with
  | case1 | case3 => cases h
  | case2 | case5 =>
    cases h
    rfl
  | case4 rest ih | case6 c d rest hq hescape ih =>
    obtain ⟨⟨t', r'⟩, hrest, heq⟩ := Option.map_eq_some_iff.mp h
    cases heq
    rw [List.getLast?_cons, List.getLast?_cons, ih hrest]
    rfl
  | case7 c d rest hq hescape ih =>
    obtain ⟨⟨t', r'⟩, hrest, heq⟩ := Option.map_eq_some_iff.mp h
    cases heq
    rw [List.getLast?_cons, ih hrest]
    rfl

/-- Without a quote nothing is closed. -/
theorem splitQuote_of_notMem (h : q ∉ a) : splitQuote escapes q a = none := by
  fun_induction splitQuote escapes q a with
  | case1 | case3 => rfl
  | case2 | case4 | case5 => exact absurd (List.mem_cons_self ..) h
  | case6 c d rest hq hescape ih =>
    rw [ih fun hmem => h (.tail _ (.tail _ hmem))]
    rfl
  | case7 c d rest hq hescape ih =>
    rw [ih fun hmem => h (.tail _ hmem)]
    rfl

theorem splitQuote_none (h : splitQuote escapes q a = none) (hb : q ∉ b) : splitQuote escapes q (a ++ b) = none := by
  fun_induction splitQuote escapes q a with
  | case1 => exact splitQuote_of_notMem hb
  | case2 => cases h
  | case3 c hq =>
    cases b with
    | nil => simp [splitQuote, hq]
    | cons d b =>
      have hq' : q ∉ d :: b := hb
      simp only [List.cons_append, List.nil_append, splitQuote, if_neg hq]
      split
      · rw [splitQuote_of_notMem fun hmem => hb (.tail _ hmem), Option.map_none]
      · rw [splitQuote_of_notMem hb, Option.map_none]
  | case4 rest ih =>
    simp only [List.cons_append, splitQuote, if_true, ih (Option.map_eq_none_iff.mp h), Option.map_none]
  | case5 => cases h
  | case6 c d rest hq hescape ih =>
    simp only [List.cons_append, splitQuote, if_neg hq, if_pos hescape, ih (Option.map_eq_none_iff.mp h),
      Option.map_none]
  | case7 c d rest hq hescape ih =>
    have hrest := ih (Option.map_eq_none_iff.mp h)
    simp only [List.cons_append] at hrest ⊢
    simp only [splitQuote, if_neg hq, if_neg hescape, hrest, Option.map_none]

end Splits

/-! What may come behind a text without changing what is in it. -/

/-- It begins with a blank, a semicolon or a character beyond ASCII, and it closes no tag. -/
structure SetApart (b : Str) : Prop where
  /-- the first character -/
  head : ∀ c, b.head? = some c → isSqlBlank c = true ∨ c = ';' ∨ 128 ≤ c.toNat
  /-- the tag -/
  tag : (b.dropWhile isTagChar).head? ≠ some '$'

/-- It begins with a blank or a semicolon. -/
def Neutral (b : Str) : Prop := ∀ c, b.head? = some c → isSqlBlank c = true ∨ c = ';'

/-- Blanks and semicolons are in no word. -/
theorem not_wordChar_of_neutral {c : Char} (h : isSqlBlank c = true ∨ c = ';') :
    isLexWordChar c = false ∧ c ≠ '$' := by
  have hcodes : c.toNat ∈ [9, 10, 11, 12, 13, 32, 59] := by
    rcases h with h | rfl
    · simp only [isSqlBlank, Bool.or_eq_true, beq_iff_eq, Bool.and_eq_true, decide_eq_true_eq] at h
      rcases h with rfl | h
      · decide
      · simp only [List.mem_cons, List.not_mem_nil, or_false]
        omega
    · decide
  have hplain : ∀ n ∈ [9, 10, 11, 12, 13, 32, 59], isLexWordChar (Char.ofNat n) = false ∧ Char.ofNat n ≠ '$' :=
    forall_of_all (by decide)
  have h := hplain _ hcodes
  rwa [Char.ofNat_toNat] at h

theorem Neutral.apart {b : Str} (h : Neutral b) : SetApart b := by
  refine ⟨fun c hc => (h c hc).imp id .inl, ?_⟩
  cases b with
  | nil => nofun
  | cons c b =>
    obtain ⟨hword, hdollar⟩ := not_wordChar_of_neutral (h c rfl)
    rw [List.dropWhile_cons_of_neg (by simp [isTagChar, hword])]
    exact fun heq => hdollar (Option.some.inj heq)

theorem wordChar_of_inWord {d : SqlDialect} {first k : Char} (h : d.inWord first k = true) :
    isLexWordChar k = true := by
  cases d with
  | mysql version => exact h
  | postgres =>
    rw [SqlDialect.inWord] at h
    split at h
    · rw [isTagChar, Bool.and_eq_true] at h
      exact h.1
    · exact h

section Neutral

variable {d : SqlDialect} {first : Char} {b : Str}

/-- A word does not go on in such a text. -/
theorem Neutral.head_inWord (h : Neutral b) {k : Char} (hk : b.head? = some k) : d.inWord first k = false := by
  have hplain := (not_wordChar_of_neutral (h k hk)).1
  apply Bool.eq_false_iff.mpr
  intro hword
  cases hplain.symm.trans (wordChar_of_inWord hword)

theorem Neutral.dropWhile (h : Neutral b) : b.dropWhile (d.inWord first) = b := by
  cases b with
  | nil => rfl
  | cons k b => exact List.dropWhile_cons_of_neg (by rw [h.head_inWord rfl]; exact Bool.false_ne_true)

theorem Neutral.takeWhile (h : Neutral b) : b.takeWhile (d.inWord first) = [] := by
  cases b with
  | nil => rfl
  | cons k b => exact List.takeWhile_cons_of_neg (by rw [h.head_inWord rfl]; exact Bool.false_ne_true)

end Neutral

section SetApart

variable {b rest : Str} {c : Char} {d : SqlDialect}

/-- No such text begins with any of these characters. -/
theorem SetApart.head_ne (h : SetApart b) {k : Char} (hk : k ∈ "-/*!'\"`#$0123456789".toList) : b.head? ≠ some k := by
  intro hhead
  have hplain : ∀ k ∈ "-/*!'\"`#$0123456789".toList, isSqlBlank k = false ∧ k ≠ ';' ∧ k.toNat < 128 :=
    forall_of_all (by decide)
  obtain ⟨hblank, hsemi, hascii⟩ := hplain k hk
  rcases h.head k hhead with h | h | h
  · cases hblank.symm.trans h
  · exact hsemi h
  · omega

theorem mem_of_isDigit (h : c.isDigit = true) : c ∈ "-/*!'\"`#$0123456789".toList := by
  have hcodes : c.toNat ∈ [48, 49, 50, 51, 52, 53, 54, 55, 56, 57] := by
    simp only [Char.isDigit, ge_iff_le, Bool.and_eq_true, decide_eq_true_eq, UInt32.le_iff_toNat_le,
      Char.toNat_val] at h
    simp only [List.mem_cons, List.not_mem_nil, or_false]
    have h48 : '0'.toNat = 48 := rfl
    have h57 : '9'.toNat = 57 := rfl
    omega
  have hplain : ∀ n ∈ [48, 49, 50, 51, 52, 53, 54, 55, 56, 57], Char.ofNat n ∈ "-/*!'\"`#$0123456789".toList :=
    forall_of_all (by decide)
  have h := hplain _ hcodes
  rwa [Char.ofNat_toNat] at h

theorem head?_append_ne (h : b.head? ≠ some c) : (rest ++ b).head? = some c ↔ rest.head? = some c := by
  cases rest with
  | nil => simp [h]
  | cons k rest => rfl

theorem dropWhile_append_of_ne {p : Char → Bool} (h : rest.dropWhile p ≠ []) :
    (rest ++ b).dropWhile p = rest.dropWhile p ++ b := by
  rw [List.dropWhile_append, if_neg (by rwa [List.isEmpty_iff])]

theorem takeWhile_append_of_ne {p : Char → Bool} (h : rest.dropWhile p ≠ []) :
    (rest ++ b).takeWhile p = rest.takeWhile p := by
  have htext : (rest ++ b).takeWhile p ++ (rest ++ b).dropWhile p = rest.takeWhile p ++ (rest ++ b).dropWhile p := by
    rw [List.takeWhile_append_dropWhile, dropWhile_append_of_ne h, ← List.append_assoc, List.takeWhile_append_dropWhile]
  exact List.append_cancel_right htext

/-- A tag that does not end does not end there either. -/
theorem SetApart.dollarTag (h : SetApart b) : dollarTag (rest ++ b) = dollarTag rest := by
  cases hdrop : rest.dropWhile isTagChar with
  | nil =>
    have hall : ∀ k ∈ rest, isTagChar k = true := List.dropWhile_eq_nil_iff.mp hdrop
    have hb : ((rest ++ b).dropWhile isTagChar).head? ≠ some '$' := by
      rw [List.dropWhile_append_of_pos hall]
      exact h.tag
    rw [TurbineProxy.dollarTag, TurbineProxy.dollarTag, if_neg fun h => hb h.2, if_neg fun h => by cases hdrop ▸ h.2]
  | cons k after =>
    have hne : rest.dropWhile isTagChar ≠ [] := by simp [hdrop]
    rw [TurbineProxy.dollarTag, TurbineProxy.dollarTag, dropWhile_append_of_ne hne, takeWhile_append_of_ne hne, hdrop]
    rfl

/-- The quote behind `U&` is not found there. -/
theorem SetApart.unicodeQuote (h : SetApart b) : unicodeQuote (rest ++ b) = unicodeQuote rest := by
  have hand : b.head? ≠ some '&' := by
    intro hhead
    rcases h.head '&' hhead with h | h | h
    · cases h
    · cases h
    · exact absurd h (by decide)
  have hquotes : b.head?.filter (fun q => q == Char.ofNat 0x27 || q == '"') = none := by
    rw [Option.filter_eq_none_iff]
    rintro q hq hquote
    rw [Bool.or_eq_true, beq_iff_eq, beq_iff_eq] at hquote
    rcases hquote with rfl | rfl
    · exact h.head_ne (by decide) hq
    · exact h.head_ne (by decide) hq
  simp only [TurbineProxy.unicodeQuote, head?_append_ne hand]
  split
  · rename_i hhead
    match rest with
    | [_] => exact hquotes
    | _ :: _ :: _ => rfl
  · rfl

theorem SetApart.opening (h : SetApart b) : d.opening c (rest ++ b) = d.opening c rest := by
  cases d with
  | mysql version => rfl
  | postgres =>
    have hquote : b.head? ≠ some (Char.ofNat 0x27) := h.head_ne (by decide)
    simp only [SqlDialect.opening, head?_append_ne hquote, h.unicodeQuote, h.dollarTag]

/-- Only two hyphens at the end of the text may stop being a comment. -/
theorem SetApart.opensLine (h : SetApart b) (hrest : c = '-' → rest ≠ ['-']) :
    d.opensLine c (rest ++ b) = d.opensLine c rest := by
  have hhyphen : b.head? ≠ some '-' := h.head_ne (by decide)
  have hhead : ((rest ++ b).head? == some '-') = (rest.head? == some '-') :=
    Bool.eq_iff_iff.mpr (by simp only [beq_iff_eq, head?_append_ne hhyphen])
  cases d with
  | postgres => simp only [SqlDialect.opensLine, hhead]
  | mysql version =>
    simp only [SqlDialect.opensLine, hhead]
    match rest with
    | [] =>
      have hnone : (([] : Str).head? == some '-') = false := rfl
      simp only [hnone, Bool.and_false, Bool.false_and]
    | [k] =>
      have hk : (c == '-' && [k].head? == some '-') = false := by
        by_contra htrue
        simp only [Bool.not_eq_false, Bool.and_eq_true, beq_iff_eq] at htrue
        exact hrest htrue.1 (by rw [Option.some.inj htrue.2])
      simp only [hk, Bool.false_and]
    | _ :: _ :: _ => rfl

theorem length_of_commentVersion {asked : Nat} (h : commentVersion rest = some asked) : 5 ≤ rest.length := by
  rw [commentVersion] at h
  split at h
  · rename_i hdigits
    have hlen := hdigits.1
    rw [List.length_take] at hlen
    omega
  · cases h

/-- Digits do not go on in such a text. -/
theorem SetApart.commentVersion (h : SetApart b) : commentVersion (rest ++ b) = commentVersion rest := by
  by_cases hlen : 5 ≤ rest.length
  · rw [TurbineProxy.commentVersion, TurbineProxy.commentVersion, List.take_append_of_le_length hlen]
  · have hshort : TurbineProxy.commentVersion rest = none := by
      rw [TurbineProxy.commentVersion, if_neg]
      rintro ⟨h5, -⟩
      rw [List.length_take] at h5
      omega
    rw [hshort, TurbineProxy.commentVersion, if_neg]
    rintro ⟨h5, hdigits⟩
    rw [List.take_append, List.all_append, Bool.and_eq_true] at hdigits
    cases b with
    | nil =>
      rw [List.append_nil, List.length_take] at h5
      omega
    | cons k b =>
      obtain ⟨m, hm⟩ := Nat.exists_eq_add_of_lt (Nat.lt_of_not_le hlen)
      have htake : 5 - rest.length = m + 1 := by omega
      rw [htake, List.take_succ_cons, List.all_cons, Bool.and_eq_true] at hdigits
      exact h.head_ne (mem_of_isDigit hdigits.2.1) rfl

end SetApart

/-! ## One lexeme -/

section Read

variable {d : SqlDialect} {nests : Nat → Bool} {inside inside' : Bool} {c : Char} {rest r b : Str} {l : Lexeme}

theorem readComment_text (h : readComment nests inside rest = (l, r, inside')) :
    "/*".toList ++ rest = l.text ++ r ∧ l.text ≠ [] := by
  rw [readComment] at h
  split at h
  · rename_i body after hsplit
    cases h
    rw [splitBlock_text hsplit, Lexeme.text, List.append_assoc]
    exact ⟨rfl, nofun⟩
  · cases h
    exact ⟨(List.append_nil _).symm, nofun⟩

theorem readBlock_text (h : d.readBlock inside rest = (l, r, inside')) :
    "/*".toList ++ rest = l.text ++ r ∧ l.text ≠ [] := by
  cases d with
  | postgres => exact readComment_text h
  | mysql version =>
    rw [SqlDialect.readBlock] at h
    split at h
    · rename_i hbang
      split at h
      · cases h
        cases rest with
        | nil => cases hbang
        | cons k rest =>
          cases hbang
          exact ⟨rfl, nofun⟩
      · split at h
        · cases h
          rw [Lexeme.text, List.append_assoc, List.take_append_drop]
          exact ⟨rfl, nofun⟩
        · exact readComment_text h
    · exact readComment_text h

theorem not_endsLine_of_opensLine (h : d.opensLine c rest = true) : d.endsLine c = false := by
  cases d with
  | mysql version =>
    have hc : c = '#' ∨ c = '-' := by
      simp only [SqlDialect.opensLine, Bool.or_eq_true, Bool.and_eq_true, beq_iff_eq] at h
      exact h.imp_right fun h => h.1.1
    rcases hc with rfl | rfl <;> rfl
  | postgres =>
    have hc : c = '-' := by
      simp only [SqlDialect.opensLine, Bool.and_eq_true, beq_iff_eq] at h
      exact h.1
    cases hc
    rfl

theorem dollarTag_eq {tag : Str} (h : dollarTag rest = some tag) : tag ++ ['$'] <+: rest := by
  rw [dollarTag] at h
  split at h
  · rename_i hdollar
    cases h
    cases hdrop : rest.dropWhile isTagChar with
    | nil => cases hdrop ▸ hdollar.2
    | cons k after =>
      rw [hdrop] at hdollar
      cases hdollar.2
      have hrest : rest.takeWhile isTagChar ++ '$' :: after = rest := by
        rw [← hdrop, List.takeWhile_append_dropWhile]
      exact ⟨after, (List.append_assoc ..).trans hrest⟩
  · cases h

/-- Where `unicodeQuote` finds a quote, an ampersand and this quote come next. -/
theorem unicodeQuote_eq {q : Char} (h : unicodeQuote rest = some q) :
    ∃ rest', rest = '&' :: q :: rest' ∧ (q = Char.ofNat 0x27 ∨ q = '"') := by
  obtain ⟨hhead, h⟩ := Option.ite_none_right_eq_some.mp h
  obtain ⟨hq, hquote⟩ := Option.filter_eq_some_iff.mp h
  rw [Bool.or_eq_true, beq_iff_eq, beq_iff_eq] at hquote
  match rest with
  | k :: q' :: rest' =>
    cases hhead
    cases hq
    exact ⟨rest', rfl, hquote⟩

/-- The text begins with the mark. -/
theorem opening_mark {opening : Opening} (h : d.opening c rest = some opening) :
    opening.mark ≠ [] ∧ opening.mark <+: c :: rest := by
  cases d with
  | mysql version =>
    simp only [SqlDialect.opening] at h
    split at h
    · cases h
      exact ⟨nofun, ⟨rest, rfl⟩⟩
    · split at h
      · cases h
        exact ⟨nofun, ⟨rest, rfl⟩⟩
      · cases h
  | postgres =>
    simp only [SqlDialect.opening] at h
    split at h
    · cases h
      exact ⟨nofun, ⟨rest, rfl⟩⟩
    split at h
    · rename_i hescapes
      cases h
      cases rest with
      | nil => cases hescapes.2
      | cons k rest =>
        cases hescapes.2
        exact ⟨nofun, ⟨rest, rfl⟩⟩
    split at h
    · obtain ⟨q, hq, heq⟩ := Option.map_eq_some_iff.mp h
      cases heq
      obtain ⟨rest, rfl, -⟩ := unicodeQuote_eq hq
      exact ⟨nofun, ⟨rest, rfl⟩⟩
    split at h
    · rename_i hdollar
      obtain ⟨tag, htag, heq⟩ := Option.map_eq_some_iff.mp h
      cases heq
      rw [hdollar]
      exact ⟨nofun, (List.prefix_cons_inj _).mpr (dollarTag_eq htag)⟩
    · cases h

theorem Opening.close_text {opening : Opening} {body : Str} (h : opening.close rest = some (body, r)) :
    rest = body ++ r := by
  cases opening with
  | quote escapes q mark => exact splitQuote_text h
  | dollar mark =>
    obtain ⟨⟨t, after⟩, hsplit, heq⟩ := Option.map_eq_some_iff.mp h
    cases heq
    rw [List.append_assoc]
    exact splitFirst_eq_append hsplit

/-- Here begin quotes, a word or a sign, but no blank, no comment and no mark of one. -/
structure Unmarked (d : SqlDialect) (inside : Bool) (c : Char) (rest : Str) : Prop where
  /-- no blank -/
  blank : isSqlBlank c = false
  /-- no comment up to the end of the line -/
  line : d.opensLine c rest = false
  /-- no comment between marks -/
  block : ¬(c = '/' ∧ rest.head? = some '*')
  /-- no end of an executable one -/
  mark : ¬(inside = true ∧ c = '*' ∧ rest.head? = some '/')

/-- What the lexer may read at the beginning of `c :: rest`: a lexeme, what is left, and whether that is inside an
executable comment. -/
inductive ReadsAs (d : SqlDialect) (inside : Bool) (c : Char) (rest : Str) : Lexeme → Str → Bool → Prop
  /-- a blank -/
  | blank (h : isSqlBlank c = true) : ReadsAs d inside c rest (.blank c) rest inside
  /-- a comment up to the end of the line -/
  | line (hblank : isSqlBlank c = false) (h : d.opensLine c rest = true) :
    ReadsAs d inside c rest (.line ((c :: rest).takeWhile fun k => !d.endsLine k))
      ((c :: rest).dropWhile fun k => !d.endsLine k) inside
  /-- a comment between marks, or a mark -/
  | block {rest' r : Str} {l : Lexeme} {inside' : Bool} (hc : c = '/') (hrest : rest = '*' :: rest')
    (h : d.readBlock inside rest' = (l, r, inside')) : ReadsAs d inside c rest l r inside'
  /-- the end of an executable comment -/
  | mark {rest' : Str} (hinside : inside = true) (hc : c = '*') (hrest : rest = '/' :: rest') :
    ReadsAs d inside c rest (.block "*/".toList) rest' false
  /-- a text in quotes -/
  | quoted {opening : Opening} {body r : Str} (h : Unmarked d inside c rest) (hopening : d.opening c rest = some opening)
    (hclose : opening.close ((c :: rest).drop opening.mark.length) = some (body, r)) :
    ReadsAs d inside c rest (.quoted (opening.mark ++ body)) r inside
  /-- quotes that are not closed -/
  | unfinished {opening : Opening} (h : Unmarked d inside c rest) (hopening : d.opening c rest = some opening)
    (hclose : opening.close ((c :: rest).drop opening.mark.length) = none) :
    ReadsAs d inside c rest (.unfinished (c :: rest)) [] inside
  /-- a word -/
  | word (h : Unmarked d inside c rest) (hopening : d.opening c rest = none)
    (hc : isLexWordChar c = true ∧ (d = .postgres → c ≠ '$')) :
    ReadsAs d inside c rest (.word (c :: rest.takeWhile (d.inWord c))) (rest.dropWhile (d.inWord c)) inside
  /-- a sign -/
  | sign (h : Unmarked d inside c rest) (hopening : d.opening c rest = none)
    (hc : ¬(isLexWordChar c = true ∧ (d = .postgres → c ≠ '$'))) : ReadsAs d inside c rest (.sign c) rest inside

/-- The lexer reads what it may. -/
theorem readLexeme_reads (h : readLexeme d inside c rest = (l, r, inside')) : ReadsAs d inside c rest l r inside' := by
  rw [readLexeme] at h
  split at h
  · rename_i hblank
    cases h
    exact .blank hblank
  rename_i hblank
  rw [Bool.not_eq_true] at hblank
  split at h
  · rename_i hline
    cases h
    exact .line hblank hline
  rename_i hline
  rw [Bool.not_eq_true] at hline
  split at h
  · rename_i hblock
    cases rest with
    | nil => cases hblock.2
    | cons k rest =>
      obtain ⟨hc, hk⟩ := hblock
      cases hk
      exact .block hc rfl h
  rename_i hblock
  split at h
  · rename_i hend
    cases rest with
    | nil => cases hend.2.2
    | cons k rest =>
      obtain ⟨hinside, hc, hk⟩ := hend
      cases hk
      cases h
      exact .mark hinside hc rfl
  rename_i hend
  have hunmarked : Unmarked d inside c rest := ⟨hblank, hline, hblock, hend⟩
  split at h
  · rename_i opening hopening
    split at h
    · rename_i body after hclose
      cases h
      exact .quoted hunmarked hopening hclose
    · rename_i hclose
      cases h
      exact .unfinished hunmarked hopening hclose
  · rename_i hopening
    split at h
    · rename_i hword
      cases h
      exact .word hunmarked hopening hword
    · rename_i hword
      cases h
      exact .sign hunmarked hopening hword

/-- There is nothing else that it may read. -/
theorem ReadsAs.eq (h : ReadsAs d inside c rest l r inside') : readLexeme d inside c rest = (l, r, inside') := by
  cases h with
  | blank h => rw [readLexeme, if_pos h]
  | line hblank h => rw [readLexeme, if_neg (by rw [hblank]; exact Bool.false_ne_true), if_pos h]
  | block hc hrest h =>
    subst hc hrest
    rw [← h]
    cases d <;> rfl
  | mark hinside hc hrest =>
    subst hinside hc hrest
    cases d <;> rfl
  | quoted h hopening hclose | unfinished h hopening hclose =>
    simp only [readLexeme, h.blank, h.line, h.block, h.mark, hopening, hclose, Bool.false_eq_true, if_false]
  | word h hopening hc =>
    simp only [readLexeme, h.blank, h.line, h.block, h.mark, hopening, Bool.false_eq_true, if_false, if_pos hc]
  | sign h hopening hc =>
    simp only [readLexeme, h.blank, h.line, h.block, h.mark, hopening, Bool.false_eq_true, if_false, if_neg hc]

/-- The lexeme that is read and what is left of the text are the text. -/
theorem readLexeme_text (h : readLexeme d inside c rest = (l, r, inside')) :
    c :: rest = l.text ++ r ∧ l.text ≠ [] := by
  cases readLexeme_reads h with
  | blank | sign => exact ⟨rfl, nofun⟩
  | line hblank hline =>
    rw [Lexeme.text, List.takeWhile_append_dropWhile]
    rw [List.takeWhile_cons_of_pos (by rw [not_endsLine_of_opensLine hline]; rfl)]
    exact ⟨rfl, nofun⟩
  | block hc hrest h =>
    rw [hc, hrest]
    exact readBlock_text h
  | mark hinside hc hrest =>
    rw [hc, hrest]
    exact ⟨rfl, nofun⟩
  | quoted hunmarked hopening hclose =>
    obtain ⟨hmark, rest', hrest⟩ := opening_mark hopening
    rw [← hrest, List.drop_left] at hclose
    rw [← hrest, Opening.close_text hclose, Lexeme.text, List.append_assoc]
    exact ⟨rfl, fun heq => hmark (List.append_eq_nil_iff.mp heq).1⟩
  | unfinished => exact ⟨(List.append_nil _).symm, nofun⟩
  | word =>
    rw [Lexeme.text, List.cons_append, List.takeWhile_append_dropWhile]
    exact ⟨rfl, nofun⟩

theorem readComment_append (h : readComment nests inside rest = (l, r, inside')) (hl : r ≠ [] ∨ l.closed = true) :
    readComment nests inside (rest ++ b) = (l, r ++ b, inside') := by
  rw [readComment] at h ⊢
  split at h
  · rename_i body after hsplit
    cases h
    rw [splitBlock_append hsplit]
  · cases h
    exact (hl.elim (fun hr => hr rfl) nofun).elim

theorem readBlock_append (hb : SetApart b) (h : d.readBlock inside rest = (l, r, inside'))
    (hl : r ≠ [] ∨ l.closed = true) : d.readBlock inside (rest ++ b) = (l, r ++ b, inside') := by
  cases d with
  | postgres => exact readComment_append h hl
  | mysql version =>
    rw [SqlDialect.readBlock] at h ⊢
    simp only [head?_append_ne (hb.head_ne (k := '!') (by decide))]
    split at h
    · rename_i hbang
      rw [if_pos hbang]
      cases rest with
      | nil => cases hbang
      | cons k rest =>
        have hversion : commentVersion ((k :: rest ++ b).drop 1) = commentVersion ((k :: rest).drop 1) :=
          hb.commentVersion
        rw [hversion]
        split at h
        · cases h
          rfl
        · rename_i asked hasked
          split at h
          · rename_i hle
            cases h
            have hlen : 6 ≤ (k :: rest).length := Nat.succ_le_succ (length_of_commentVersion hasked)
            simp only [if_pos hle, List.take_append_of_le_length hlen, List.drop_append_of_le_length hlen]
          · rename_i hle
            simp only [if_neg hle]
            exact readComment_append h hl
    · rename_i hbang
      rw [if_neg hbang]
      exact readComment_append h hl

/-- The quotes there are. -/
theorem quote_mem {escapes : Bool} {q : Char} {mark : Str} (h : d.opening c rest = some (.quote escapes q mark)) :
    q ∈ [Char.ofNat 0x27, '"', Char.ofNat 0x60] := by
  cases d with
  | mysql version =>
    simp only [SqlDialect.opening] at h
    split at h
    · rename_i hc
      cases h
      rcases hc with rfl | rfl <;> simp
    · split at h
      · rename_i hc
        cases h
        simp [hc]
      · cases h
  | postgres =>
    simp only [SqlDialect.opening] at h
    split at h
    · rename_i hc
      cases h
      rcases hc with rfl | rfl <;> simp
    split at h
    · cases h
      exact .head _
    split at h
    · obtain ⟨q', hq, heq⟩ := Option.map_eq_some_iff.mp h
      cases heq
      obtain ⟨-, -, rfl | rfl⟩ := unicodeQuote_eq hq <;> simp
    split at h
    · obtain ⟨tag, -, heq⟩ := Option.map_eq_some_iff.mp h
      cases heq
    · cases h

/-- Quotes that end, end there. -/
theorem Opening.close_append {opening : Opening} {a body : Str} (hb : SetApart b)
    (hopening : d.opening c rest = some opening) (h : opening.close a = some (body, r)) :
    opening.close (a ++ b) = some (body, r ++ b) := by
  cases opening with
  | quote escapes q mark =>
    have hplain : ∀ q ∈ [Char.ofNat 0x27, '"', Char.ofNat 0x60], q ∈ "-/*!'\"`#$0123456789".toList :=
      forall_of_all (by decide)
    exact splitQuote_append h (.inr (hb.head_ne (hplain q (quote_mem hopening))))
  | dollar mark =>
    obtain ⟨⟨t, after⟩, hsplit, heq⟩ := Option.map_eq_some_iff.mp h
    cases heq
    rw [Opening.close, splitFirst_append hsplit]
    rfl

/-- No blank, comment or mark comes out of what is behind a text. -/
theorem Unmarked.append (h : Unmarked d inside c rest) (hb : SetApart b) : Unmarked d inside c (rest ++ b) where
  blank := h.blank
  line := by
    rw [hb.opensLine, h.line]
    rintro rfl rfl
    have hline := h.line
    cases d <;> cases hline
  block := by
    rw [head?_append_ne (hb.head_ne (by decide))]
    exact h.block
  mark := by
    rw [head?_append_ne (hb.head_ne (by decide))]
    exact h.mark

theorem drop_mark {opening : Opening} (h : d.opening c rest = some opening) :
    (c :: (rest ++ b)).drop opening.mark.length = (c :: rest).drop opening.mark.length ++ b := by
  obtain ⟨-, rest', hrest⟩ := opening_mark h
  rw [← List.cons_append, ← hrest, List.append_assoc, List.drop_left, List.drop_left]

/-- What comes behind a lexeme does not matter to it. -/
theorem readLexeme_append (hb : SetApart b) (h : readLexeme d inside c rest = (l, r, inside'))
    (hl : r ≠ [] ∨ l.closed = true ∧ ((∃ w, l = .word w) → Neutral b)) :
    readLexeme d inside c (rest ++ b) = (l, r ++ b, inside') := by
  have hclosed : r ≠ [] ∨ l.closed = true := hl.imp_right And.left
  apply ReadsAs.eq
  cases readLexeme_reads h with
  | blank hblank => exact .blank hblank
  | line hblank hline =>
    have hr : (c :: rest).dropWhile (fun k => !d.endsLine k) ≠ [] := hclosed.resolve_right nofun
    have hopens : d.opensLine c (rest ++ b) = true := by
      rw [hb.opensLine, hline]
      rintro rfl rfl
      exact hr (by cases d <;> rfl)
    rw [← takeWhile_append_of_ne (b := b) hr, ← dropWhile_append_of_ne hr]
    exact .line hblank hopens
  | block hc hrest h =>
    rw [hrest]
    exact .block hc rfl (readBlock_append hb h hclosed)
  | mark hinside hc hrest =>
    rw [hrest]
    exact .mark hinside hc rfl
  | quoted hunmarked hopening hclose =>
    refine .quoted (hunmarked.append hb) (hb.opening.trans hopening) ?_
    rw [drop_mark hopening]
    exact Opening.close_append hb hopening hclose
  | unfinished => exact (hclosed.elim (fun hr => hr rfl) nofun).elim
  | word hunmarked hopening hc =>
    have htake : (rest ++ b).takeWhile (d.inWord c) = rest.takeWhile (d.inWord c) ∧
        (rest ++ b).dropWhile (d.inWord c) = rest.dropWhile (d.inWord c) ++ b := by
      by_cases hr : rest.dropWhile (d.inWord c) = []
      · have hneutral : Neutral b := (hl.resolve_left fun h => h hr).2 ⟨_, rfl⟩
        have hall : ∀ k ∈ rest, d.inWord c k = true := List.dropWhile_eq_nil_iff.mp hr
        rw [List.dropWhile_append_of_pos hall, List.takeWhile_append_of_pos hall, hneutral.dropWhile,
          hneutral.takeWhile, hr, List.takeWhile_eq_self_iff.mpr hall, List.append_nil]
        exact ⟨rfl, rfl⟩
      · exact ⟨takeWhile_append_of_ne hr, dropWhile_append_of_ne hr⟩
    rw [← htake.1, ← htake.2]
    exact .word (hunmarked.append hb) (hb.opening.trans hopening) hc
  | sign hunmarked hopening hc => exact .sign (hunmarked.append hb) (hb.opening.trans hopening) hc

/-- A text that does not close quotes and comments. -/
structure KeepsOpen (b : Str) : Prop extends SetApart b where
  /-- nothing in it does -/
  notMem : ∀ k ∈ ['/', '$', Char.ofNat 0x27, '"', Char.ofNat 0x60], k ∉ b

theorem readComment_unfinished (hb : '/' ∉ b) (h : readComment nests inside rest = (l, r, inside'))
    (hl : ¬l.closed) :
    r = [] ∧ readComment nests inside (rest ++ b) = (.unfinished ("/*".toList ++ (rest ++ b)), [], inside') := by
  rw [readComment] at h ⊢
  split at h
  · cases h
    exact absurd rfl hl
  · rename_i hsplit
    cases h
    rw [splitBlock_none hsplit hb]
    exact ⟨rfl, rfl⟩

theorem readBlock_unfinished (hb : KeepsOpen b) (h : d.readBlock inside rest = (l, r, inside')) (hl : ¬l.closed) :
    r = [] ∧ d.readBlock inside (rest ++ b) = (.unfinished ("/*".toList ++ (rest ++ b)), [], inside') := by
  have hslash : '/' ∉ b := hb.notMem _ (by decide)
  cases d with
  | postgres => exact readComment_unfinished hslash h hl
  | mysql version =>
    rw [SqlDialect.readBlock] at h ⊢
    simp only [head?_append_ne (hb.head_ne (k := '!') (by decide))]
    split at h
    · rename_i hbang
      rw [if_pos hbang]
      cases rest with
      | nil => cases hbang
      | cons k rest =>
        have hversion : commentVersion ((k :: rest ++ b).drop 1) = commentVersion ((k :: rest).drop 1) :=
          hb.toSetApart.commentVersion
        rw [hversion]
        split at h
        · cases h
          exact absurd rfl hl
        · split at h
          · cases h
            exact absurd rfl hl
          · rename_i hle
            simp only [if_neg hle]
            exact readComment_unfinished hslash h hl
    · rename_i hbang
      rw [if_neg hbang]
      exact readComment_unfinished hslash h hl

theorem dollar_mark {mark : Str} (h : d.opening c rest = some (.dollar mark)) :
    ∃ first, mark = first ++ ['$'] := by
  cases d with
  | mysql version =>
    simp only [SqlDialect.opening] at h
    split at h
    · cases h
    · split at h <;> cases h
  | postgres =>
    simp only [SqlDialect.opening] at h
    split at h
    · cases h
    split at h
    · cases h
    split at h
    · obtain ⟨q, -, heq⟩ := Option.map_eq_some_iff.mp h
      cases heq
    split at h
    · obtain ⟨tag, -, heq⟩ := Option.map_eq_some_iff.mp h
      cases heq
      exact ⟨'$' :: tag, rfl⟩
    · cases h

theorem Opening.close_none {opening : Opening} {a : Str} (hb : KeepsOpen b) (hopening : d.opening c rest = some opening)
    (h : opening.close a = none) : opening.close (a ++ b) = none := by
  cases opening with
  | quote escapes q mark =>
    have hplain : ∀ q ∈ [Char.ofNat 0x27, '"', Char.ofNat 0x60],
        q ∈ ['/', '$', Char.ofNat 0x27, '"', Char.ofNat 0x60] := forall_of_all (by decide)
    exact splitQuote_none h (hb.notMem _ (hplain q (quote_mem hopening)))
  | dollar mark =>
    obtain ⟨first, rfl⟩ := dollar_mark hopening
    rw [Opening.close, Option.map_eq_none_iff, ← Option.not_isSome_iff_eq_none, splitFirst_isSome] at h ⊢
    exact fun hinfix => h (infix_of_append first (hb.notMem _ (by decide)) hinfix)

/-- What is not finished goes on to the end. -/
theorem readLexeme_unfinished (hb : KeepsOpen b) (h : readLexeme d inside c rest = (l, r, inside'))
    (hl : ∃ t, l = .unfinished t) :
    r = [] ∧ readLexeme d inside c (rest ++ b) = (.unfinished (c :: (rest ++ b)), [], inside') := by
  obtain ⟨t, rfl⟩ := hl
  cases readLexeme_reads h with
  | block hc hrest h =>
    obtain ⟨hr, hblock⟩ := readBlock_unfinished hb h nofun
    rw [hc, hrest]
    exact ⟨hr, ReadsAs.eq (.block rfl rfl hblock)⟩
  | unfinished hunmarked hopening hclose =>
    refine ⟨rfl, ReadsAs.eq (.unfinished (hunmarked.append hb.toSetApart) (hb.toSetApart.opening.trans hopening) ?_)⟩
    rw [drop_mark hopening]
    exact Opening.close_none hb hopening hclose

/-- A comment between marks is one that ends or one that does not. -/
theorem readBlock_kind (h : d.readBlock inside rest = (l, r, inside')) : ∃ t, l = .block t ∨ l = .unfinished t := by
  have hcomment : ∀ {nests : Nat → Bool}, readComment nests inside rest = (l, r, inside') →
      ∃ t, l = .block t ∨ l = .unfinished t := by
    intro nests h
    rw [readComment] at h
    split at h <;> cases h
    · exact ⟨_, .inl rfl⟩
    · exact ⟨_, .inr rfl⟩
  cases d with
  | postgres => exact hcomment h
  | mysql version =>
    rw [SqlDialect.readBlock] at h
    split at h
    · split at h
      · cases h
        exact ⟨_, .inl rfl⟩
      · split at h
        · cases h
          exact ⟨_, .inl rfl⟩
        · exact hcomment h
    · exact hcomment h

/-- How a comment up to the end of the line is read. -/
theorem readLexeme_eq_line {t : Str} (h : readLexeme d inside c rest = (.line t, r, inside')) :
    isSqlBlank c = false ∧ d.opensLine c rest = true ∧ t = (c :: rest).takeWhile (fun k => !d.endsLine k) ∧
      r = (c :: rest).dropWhile (fun k => !d.endsLine k) ∧ inside' = inside := by
  cases readLexeme_reads h with
  | line hblank hline => exact ⟨hblank, hline, rfl, rfl, rfl⟩
  | block hc hrest h =>
    obtain ⟨t, ht⟩ := readBlock_kind h
    rcases ht with ht | ht <;> cases ht

/-- A comment takes the rest of its line. -/
theorem readLexeme_line {t : Str} (hb : ∀ k ∈ ' ' :: b, d.endsLine k = false)
    (h : readLexeme d inside c rest = (.line t, [], inside')) :
    readLexeme d inside c (rest ++ ' ' :: b) = (.line (t ++ ' ' :: b), [], inside') := by
  obtain ⟨hblank, hline, rfl, hr, rfl⟩ := readLexeme_eq_line h
  have hopens : d.opensLine c (rest ++ ' ' :: b) = true := by
    by_cases hhyphens : c = '-' ∧ rest = ['-']
    · obtain ⟨rfl, rfl⟩ := hhyphens
      cases d <;> rfl
    · have hneutral : Neutral (' ' :: b) := by
        intro k hk
        cases hk
        exact .inl rfl
      rw [hneutral.apart.opensLine fun hc hrest => hhyphens ⟨hc, hrest⟩, hline]
  have hall : ∀ k ∈ c :: rest, (!d.endsLine k) = true := List.dropWhile_eq_nil_iff.mp hr.symm
  have htext : ∀ k ∈ c :: rest ++ ' ' :: b, (!d.endsLine k) = true := by
    intro k hk
    rcases List.mem_append.mp hk with hk | hk
    · exact hall k hk
    · rw [hb k hk]
      rfl
  rw [readLexeme, if_neg (by rw [hblank]; exact Bool.false_ne_true), if_pos hopens, ← List.cons_append,
    List.takeWhile_eq_self_iff.mpr htext, List.dropWhile_eq_nil_iff.mpr htext, List.takeWhile_eq_self_iff.mpr hall]

/-- Characters that begin neither a comment nor quotes. -/
theorem readLexeme_plain (hc : c ∉ "#-/*'\"`EeUu$".toList) :
    readLexeme d inside c rest =
      if isSqlBlank c then (.blank c, rest, inside)
      else if isLexWordChar c then
        (.word (c :: rest.takeWhile (d.inWord c)), rest.dropWhile (d.inWord c), inside)
      else (.sign c, rest, inside) := by
  have hne : ∀ k ∈ "#-/*'\"`EeUu$".toList, c ≠ k := fun k hk heq => hc (heq ▸ hk)
  have hslash := hne '/' (by decide)
  have hstar := hne '*' (by decide)
  have hdollar := hne '$' (by decide)
  have hline : d.opensLine c rest = false := by
    cases d <;> simp [SqlDialect.opensLine, hne '#' (by decide), hne '-' (by decide)]
  have hopening : d.opening c rest = none := by
    cases d <;> simp [SqlDialect.opening, hne (Char.ofNat 0x27) (by decide), hne '"' (by decide),
      hne (Char.ofNat 0x60) (by decide), hne 'E' (by decide), hne 'e' (by decide), hne 'U' (by decide), hne 'u' (by decide), hdollar]
  rw [readLexeme, hline, hopening]
  simp [hslash, hstar, hdollar]

/-- Characters beyond ASCII begin a word. -/
theorem readLexeme_high (hc : 128 ≤ c.toNat) :
    readLexeme d inside c rest =
      (.word (c :: rest.takeWhile (d.inWord c)), rest.dropWhile (d.inWord c), inside) := by
  have hplain : c ∉ "#-/*'\"`EeUu$".toList := by
    have hlow : ∀ k ∈ "#-/*'\"`EeUu$".toList, k.toNat < 128 := forall_of_all (by decide)
    exact fun hmem => Nat.not_lt.mpr hc (hlow c hmem)
  have hblank : isSqlBlank c = false := by
    apply Bool.eq_false_iff.mpr
    intro hblank
    simp only [isSqlBlank, Bool.or_eq_true, beq_iff_eq, Bool.and_eq_true, decide_eq_true_eq] at hblank
    rcases hblank with rfl | hblank
    · exact absurd hc (by decide)
    · omega
  have hword : isLexWordChar c = true := by simp [isLexWordChar, hc]
  rw [readLexeme_plain hplain, hblank, hword]
  rfl

/-- How a word is read. -/
theorem readLexeme_eq_word {w : Str} (h : readLexeme d inside c rest = (.word w, r, inside')) :
    isLexWordChar c = true ∧ d.opening c rest = none ∧ (d = .postgres → c ≠ '$') ∧
      w = c :: rest.takeWhile (d.inWord c) ∧ r = rest.dropWhile (d.inWord c) ∧ inside' = inside := by
  cases readLexeme_reads h with
  | block hc hrest h =>
    obtain ⟨t, ht⟩ := readBlock_kind h
    rcases ht with ht | ht <;> cases ht
  | word hunmarked hopening hc => exact ⟨hc.1, hopening, hc.2, rfl, rfl, rfl⟩

theorem readLexeme_word (hc : isLexWordChar c = true) (hopening : d.opening c rest = none)
    (hd : d = .postgres → c ≠ '$') :
    readLexeme d inside c rest =
      (.word (c :: rest.takeWhile (d.inWord c)), rest.dropWhile (d.inWord c), inside) := by
  have hne : ∀ k ∈ "#-/*".toList, c ≠ k := by
    have hplain : ∀ k ∈ "#-/*".toList, isLexWordChar k = false := forall_of_all (by decide)
    rintro k hk rfl
    cases hc.symm.trans (hplain c hk)
  have hblank : isSqlBlank c = false := by
    apply Bool.eq_false_iff.mpr
    intro hblank
    cases hc.symm.trans (not_wordChar_of_neutral (.inl hblank)).1
  have hline : d.opensLine c rest = false := by
    cases d <;> simp [SqlDialect.opensLine, hne '#' (by decide), hne '-' (by decide)]
  have hslash := hne '/' (by decide)
  have hstar := hne '*' (by decide)
  rw [readLexeme, hblank, hline, hopening]
  simp only [Bool.false_eq_true, if_false, hslash, hstar, false_and, and_false, hc, true_and, if_pos hd]

theorem readLexeme_hyphen (h : d.opensLine '-' rest = false) :
    readLexeme d inside '-' rest = (.sign '-', rest, inside) := by
  rw [readLexeme, h]
  cases d <;> simp [SqlDialect.opening, isSqlBlank, isLexWordChar]

theorem inWord_of_high {first k : Char} (hk : 128 ≤ k.toNat) : d.inWord first k = true := by
  have hdollar : k ≠ '$' := by
    rintro rfl
    exact absurd hk (by decide)
  have hword : isLexWordChar k = true := by simp [isLexWordChar, hk]
  cases d with
  | mysql version => exact hword
  | postgres =>
    rw [SqlDialect.inWord]
    split
    · simp [isTagChar, hword, hdollar]
    · exact hword

end Read

/-! ## Whole texts -/

/-- These are the lexemes of a text, one after the other. -/
inductive Lexes (d : SqlDialect) : Bool → Str → List Lexeme → Bool → Prop
  /-- nothing is left -/
  | nil (inside : Bool) : Lexes d inside [] [] inside
  /-- one more -/
  | cons {inside inside' last : Bool} {c : Char} {rest r : Str} {l : Lexeme} {ls : List Lexeme}
    (head : readLexeme d inside c rest = (l, r, inside')) (tail : Lexes d inside' r ls last) :
    Lexes d inside (c :: rest) (l :: ls) last

section Lexes

variable {d : SqlDialect} {inside last last' : Bool} {a b sql : Str} {ls ls' : List Lexeme}

/-- With enough rounds the lexer reads everything. -/
theorem lexemesLoop_lexes {n : Nat} (h : sql.length < n) :
    Lexes d inside sql (lexemesLoop d n inside sql).1 (lexemesLoop d n inside sql).2 := by
  induction n generalizing inside sql with
  | zero => cases h
  | succ n ih =>
    cases sql with
    | nil => exact .nil inside
    | cons c rest =>
      refine .cons rfl (ih ?_)
      obtain ⟨htext, hne⟩ := readLexeme_text (l := (readLexeme d inside c rest).1) rfl
      have hlen := congrArg List.length htext
      have hpos := List.length_pos_iff.mpr hne
      rw [List.length_append, List.length_cons] at hlen
      rw [List.length_cons] at h
      omega

theorem lexemes_lexes (d : SqlDialect) (sql : Str) : Lexes d false sql (lexemes d sql).1 (lexemes d sql).2 :=
  lexemesLoop_lexes (Nat.lt_succ_self _)

namespace Lexes

theorem unique (h : Lexes d inside sql ls last) (h' : Lexes d inside sql ls' last') : ls = ls' ∧ last = last' := by
  induction h generalizing ls' with
  | nil inside =>
    cases h'
    exact ⟨rfl, rfl⟩
  | cons head tail ih =>
    cases h' with
    | cons head' tail' =>
      cases head.symm.trans head'
      obtain ⟨rfl, rfl⟩ := ih tail'
      exact ⟨rfl, rfl⟩

theorem lexemes_eq (h : Lexes d false sql ls last) : lexemes d sql = (ls, last) :=
  have heq := (lexemes_lexes d sql).unique h
  Prod.ext heq.1 heq.2

/-- And so the lexemes of a text, one after the other, are the text. -/
theorem text (h : Lexes d inside sql ls last) : ls.flatMap Lexeme.text = sql := by
  induction h with
  | nil inside => rfl
  | cons head tail ih => rw [List.flatMap_cons, ih, ← (readLexeme_text head).1]

/-- If a text goes on, what is before its last lexeme stays. -/
theorem cut (h : Lexes d inside a ls last) (ha : a ≠ []) :
    ∃ init l inside' c rest, ls = init ++ [l] ∧ readLexeme d inside' c rest = (l, [], last) ∧
      ∀ b, SetApart b → ∀ more last', Lexes d inside' (c :: (rest ++ b)) more last' →
        Lexes d inside (a ++ b) (init ++ more) last' := by
  induction h with
  | nil inside => exact absurd rfl ha
  | @cons inside inside' last c rest r l ls head tail ih =>
    by_cases hr : r = []
    · subst hr
      cases tail with
      | nil => exact ⟨[], l, inside, c, rest, rfl, head, fun b hb more last' h => h⟩
    · obtain ⟨init, l', at', c', rest', rfl, hread, hgoes⟩ := ih hr
      refine ⟨l :: init, l', at', c', rest', rfl, hread, fun b hb more last' h => ?_⟩
      exact .cons (readLexeme_append hb head (.inl hr)) (hgoes b hb more last' h)

/-- Two texts with a boundary between them. -/
theorem append (h : Lexes d inside a ls last) (hclosed : ∀ l ∈ ls.getLast?, l.closed = true) (hb : Neutral b)
    (h' : Lexes d last b ls' last') : Lexes d inside (a ++ b) (ls ++ ls') last' := by
  by_cases ha : a = []
  · subst ha
    cases h with
    | nil => exact h'
  · obtain ⟨init, l, at', c, rest, rfl, hread, hgoes⟩ := h.cut ha
    have hl : l.closed = true := hclosed l (by rw [List.getLast?_concat]; rfl)
    rw [List.append_assoc]
    exact hgoes b hb.apart _ _ (.cons (readLexeme_append hb.apart hread (.inr ⟨hl, fun _ => hb⟩)) h')

end Lexes

end Lexes

end TurbineProxy
