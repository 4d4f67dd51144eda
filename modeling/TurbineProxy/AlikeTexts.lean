import TurbineProxy.AllowedTokens

/-!
# Texts that are read alike

What the scanner makes of comments, names and words that it reads as the lexer does: they end in the fingerprint where
they ended in the text.
-/

namespace TurbineProxy

open Str

/-! ## What the scanner keeps -/

section Heads

variable {d : SqlDialect} {inside : Bool} {c k : Char} {s rest : Str}

/-- Signs are shown as themselves, and nothing else is. -/
theorem ShownAs.eq_iff (h : ShownAs c k) {q : Char} (hq : q.toNat < 128)
    (hplain : q.isDigit = false ∧ q ∉ [Char.ofNat 0x27, '"', '?', ' ', '\t', '\n', '\r']) : k = q ↔ c = q := by
  obtain ⟨hdigit, hplain⟩ := hplain
  simp only [List.mem_cons, List.not_mem_nil, or_false, not_or] at hplain
  cases h with
  | mark h =>
    refine ⟨fun heq => absurd heq.symm hplain.2.2.1, ?_⟩
    rintro rfl
    rcases h with h | h | h
    · cases hdigit.symm.trans h
    · exact absurd h hplain.1
    · exact absurd h hplain.2.1
  | blank h =>
    refine ⟨fun heq => absurd heq.symm hplain.2.2.2.1, ?_⟩
    rintro rfl
    have hchars : c = ' ' ∨ c = '\t' ∨ c = '\n' ∨ c = '\r' := by
      simpa [isBlankChar, or_assoc] using h
    simp [hplain] at hchars
  | same => exact Iff.rfl
  | beyond hc hk =>
    constructor <;> rintro rfl <;> omega

theorem scanText_head_iff {q : Char} (hq : q.toNat < 128)
    (hplain : q.isDigit = false ∧ q ∉ [Char.ofNat 0x27, '"', '?', ' ', '\t', '\n', '\r']) :
    (scanText false s).head? = some q ↔ s.head? = some q := by
  cases s with
  | nil => rfl
  | cons c s =>
    obtain ⟨k, t, htext, hshown⟩ := scanText_shown c s
    rw [htext, List.head?_cons, List.head?_cons, Option.some.injEq, Option.some.injEq]
    exact hshown.eq_iff hq hplain

/-- What stands for a character is a blank or a control character if the character is. -/
theorem ShownAs.control (h : ShownAs c k) :
    (decide (k.toNat ≤ 32) || k.toNat == 127) = (decide (c.toNat ≤ 32) || c.toNat == 127) := by
  cases h with
  | mark h =>
    have hplain : ∀ c ∈ "-/*!'\"`#$0123456789".toList, (decide (c.toNat ≤ 32) || c.toNat == 127) = false :=
      forall_of_all (by decide)
    refine (hplain '!' (by decide)).trans (hplain c ?_).symm
    rcases h with h | rfl | rfl
    · exact mem_of_isDigit h
    · decide
    · decide
  | blank h =>
    have hchars : c = ' ' ∨ c = '\t' ∨ c = '\n' ∨ c = '\r' := by
      simpa [isBlankChar, or_assoc] using h
    rcases hchars with rfl | rfl | rfl | rfl <;> rfl
  | same => rfl
  | beyond hc hk =>
    have hfar {k : Char} (hk : 128 ≤ k.toNat) : (decide (k.toNat ≤ 32) || k.toNat == 127) = false := by
      rw [Bool.or_eq_false_iff, decide_eq_false_iff_not, beq_eq_false_iff_ne]
      omega
    exact (hfar hk).trans (hfar hc).symm

theorem opensLine_scanText : d.opensLine c (scanText false rest) = d.opensLine c rest := by
  have hhead : ((scanText false rest).head? == some '-') = (rest.head? == some '-') :=
    Bool.eq_iff_iff.mpr (by
      rw [beq_iff_eq, beq_iff_eq]
      exact scanText_head_iff (by decide) (by decide))
  cases d with
  | postgres => simp only [SqlDialect.opensLine, hhead]
  | mysql version =>
    by_cases hhyphen : rest.head? = some '-'
    · obtain ⟨t, rfl⟩ : ∃ t, rest = '-' :: t := by
        cases rest with
        | nil => cases hhyphen
        | cons k t =>
          cases hhyphen
          exact ⟨t, rfl⟩
      have htext : scanText false ('-' :: t) = '-' :: scanText false t :=
        scanText_plain (by decide) (by decide) (by decide) (by decide)
      simp only [SqlDialect.opensLine, htext, List.head?_cons, List.drop_succ_cons, List.drop_zero]
      cases t with
      | nil => rfl
      | cons k t =>
        obtain ⟨k', t', htail, hshown⟩ := scanText_shown k t
        rw [htail, List.head?_cons, List.head?_cons, Option.all_some, Option.all_some, hshown.control]
    · have hno : (rest.head? == some '-') = false := beq_false_of_ne hhyphen
      simp only [SqlDialect.opensLine, hhead, hno, Bool.and_false, Bool.false_and]

/-- In a fingerprint no blank, comment or mark begins where there was none. -/
theorem Unmarked.shown (h : Unmarked d inside c rest) : Unmarked d inside c (scanText false rest) where
  blank := h.blank
  line := opensLine_scanText.trans h.line
  block := by
    rw [scanText_head_iff (by decide) (by decide)]
    exact h.block
  mark := by
    rw [scanText_head_iff (by decide) (by decide)]
    exact h.mark

end Heads

/-! ## Comments -/

section Comments

variable {nests : Nat → Bool} {depth : Nat} {u s body r : Str}

/-- Between the marks of comments. -/
def NoMark (u : Str) : Prop := ∀ k ∈ u, k ≠ '*' ∧ k ≠ '/'

theorem splitBlock_run (hu : NoMark u) :
    splitBlock nests depth (u ++ s) = (splitBlock nests depth s).map fun r => (u ++ r.1, r.2) := by
  induction u with
  | nil => exact (Option.map_id' ..).symm
  | cons c u ih =>
    obtain ⟨hstar, hslash⟩ := hu c (.head _)
    have hrest := ih fun k hk => hu k (.tail _ hk)
    have hcons : splitBlock nests depth (c :: (u ++ s)) =
        (splitBlock nests depth (u ++ s)).map fun r => (c :: r.1, r.2) := by
      cases u ++ s with
      | nil => rfl
      | cons d t => simp only [splitBlock, if_neg fun h : c = '*' ∧ d = '/' => hstar h.1,
          if_neg fun h : nests depth = true ∧ c = '/' ∧ d = '*' => hslash h.2.1]
    rw [List.cons_append, hcons, hrest, Option.map_map]
    rfl

/-- A comment that a text is in, at whatever depth, and that has no quotes ends in the fingerprint where it does in the
text. -/
def EndsAlike (nests : Nat → Bool) (named : Bool) (s : Str) : Prop :=
  ∀ depth body r, splitBlock nests depth s = some (body, r) → (∀ k ∈ body, k ≠ Char.ofNat 0x27 ∧ k ≠ '"') →
    ∃ body', splitBlock nests depth (scanText named s) = some (body', scanText false r)

namespace EndsAlike

/-- Characters that are in no mark may stand before it, shown as others that are in none. -/
theorem behind {named named' : Bool} {u' t : Str} (ht : EndsAlike nests named t) (hu : NoMark u) (hu' : NoMark u')
    (hs : s = u ++ t) (hscan : scanText named' s = u' ++ scanText named t) : EndsAlike nests named' s := by
  intro depth body r h hbody
  rw [hs, splitBlock_run hu] at h
  obtain ⟨⟨b, r'⟩, hsplit, heq⟩ := Option.map_eq_some_iff.mp h
  cases heq
  obtain ⟨b', hb'⟩ := ht depth b r' hsplit fun k hk => hbody k (List.mem_append.mpr (.inr hk))
  exact ⟨u' ++ b', by rw [hscan, splitBlock_run hu', hb', Option.map_some]⟩

/-- With a quote it need not. -/
theorem quote {named : Bool} {c : Char} (hc : c = Char.ofNat 0x27 ∨ c = '"') : EndsAlike nests named (c :: s) := by
  intro depth body r h hbody
  have hplain : NoMark [c] := List.forall_mem_singleton.mpr (by rcases hc with rfl | rfl <;> decide)
  rw [← List.singleton_append, splitBlock_run hplain] at h
  obtain ⟨b, -, heq⟩ := Option.map_eq_some_iff.mp h
  cases heq
  obtain ⟨hsingle, hdouble⟩ := hbody c (.head _)
  exact absurd hc (not_or.mpr ⟨hsingle, hdouble⟩)

/-- A character that the scanner keeps may be half of a mark; of a mark it keeps both. -/
theorem kept {named : Bool} {c d : Char} {t : Str} (ht : EndsAlike nests false t) (hdt : EndsAlike nests false (d :: t))
    (hscan : scanText named (c :: d :: t) = c :: scanText false (d :: t)) : EndsAlike nests named (c :: d :: t) := by
  intro depth body r h hbody
  have hpair (hd : d = '/' ∨ d = '*') : scanText false (d :: t) = d :: scanText false t := by
    rcases hd with rfl | rfl <;> exact scanText_plain (by decide) (by decide) (by decide) (by decide)
  rw [hscan]
  by_cases hend : c = '*' ∧ d = '/'
  · rw [hpair (.inl hend.2)]
    cases depth with
    | zero =>
      simp only [splitBlock, if_pos hend] at h ⊢
      cases h
      exact ⟨_, rfl⟩
    | succ depth =>
      simp only [splitBlock, if_pos hend] at h ⊢
      obtain ⟨⟨b, r'⟩, hsplit, heq⟩ := Option.map_eq_some_iff.mp h
      cases heq
      obtain ⟨b', hb'⟩ := ht depth b r' hsplit fun k hk => hbody k (.tail _ (.tail _ hk))
      exact ⟨_, by rw [hb', Option.map_some]⟩
  by_cases hnest : nests depth = true ∧ c = '/' ∧ d = '*'
  · rw [hpair (.inr hnest.2.2)]
    simp only [splitBlock, if_neg hend, if_pos hnest] at h ⊢
    obtain ⟨⟨b, r'⟩, hsplit, heq⟩ := Option.map_eq_some_iff.mp h
    cases heq
    obtain ⟨b', hb'⟩ := ht (depth + 1) b r' hsplit fun k hk => hbody k (.tail _ (.tail _ hk))
    exact ⟨_, by rw [hb', Option.map_some]⟩
  · simp only [splitBlock, if_neg hend, if_neg hnest] at h
    obtain ⟨⟨b, r'⟩, hsplit, heq⟩ := Option.map_eq_some_iff.mp h
    cases heq
    obtain ⟨b', hb'⟩ := hdt depth b r' hsplit fun k hk => hbody k (.tail _ hk)
    obtain ⟨k, t', htext, hshown⟩ := scanText_shown d t
    have hslash := hshown.eq_iff (q := '/') (by decide) (by decide)
    have hstar := hshown.eq_iff (q := '*') (by decide) (by decide)
    rw [htext] at hb' ⊢
    simp only [splitBlock, hslash, hstar, if_neg hend, if_neg hnest, hb', Option.map_some]
    exact ⟨_, rfl⟩

end EndsAlike

end Comments

/-! ## Names in quotes -/

section Quotes

variable {q : Char} {u s t r : Str}

end Quotes

end TurbineProxy
