import TurbineProxy.Text
import Mathlib.Data.List.DropRight

/-!
# Searching a text

What `str::find`, `str::contains` and `str::trim_start` find in a text, and what they find when the text goes on.
-/

namespace TurbineProxy.Str

/-- What a list can be checked for, element by element, holds of its elements. -/
theorem forall_of_all {α : Type} {l : List α} {P : α → Prop} [DecidablePred P]
    (h : (l.all fun x => decide (P x)) = true) : ∀ x ∈ l, P x := by
  simpa using h

variable {pat s t before after : Str}

/-! ## The first occurrence -/

theorem splitFirst_eq_append (h : splitFirst pat s = some (before, after)) : s = before ++ (pat ++ after) := by
  induction s generalizing before with
  | nil =>
    rw [splitFirst] at h
    split at h
    · rename_i hempty
      cases h
      rw [List.isEmpty_iff.mp hempty]
      rfl
    · cases h
  | cons c s ih =>
    rw [splitFirst] at h
    split at h
    · rename_i hpre
      cases h
      obtain ⟨rest, hrest⟩ := List.isPrefixOf_iff_prefix.mp hpre
      rw [← hrest, List.drop_left, List.nil_append]
    · obtain ⟨⟨before', after'⟩, hfirst, heq⟩ := Option.map_eq_some_iff.mp h
      cases heq
      rw [List.cons_append, ← ih hfirst]

/-- What comes behind the first occurrence is shorter. -/
theorem splitFirst_length (h : splitFirst pat s = some (before, after)) :
    after.length + pat.length ≤ s.length := by
  rw [splitFirst_eq_append h, List.length_append, List.length_append]
  omega

/-- A text that goes on has its first occurrence where it was. -/
theorem splitFirst_append (h : splitFirst pat s = some (before, after)) :
    splitFirst pat (s ++ t) = some (before, after ++ t) := by
  induction s generalizing before with
  | nil =>
    rw [splitFirst] at h
    split at h
    · rename_i hempty
      cases h
      obtain rfl := List.isEmpty_iff.mp hempty
      cases t <;> rfl
    · cases h
  | cons c s ih =>
    rw [splitFirst] at h
    rw [List.cons_append, splitFirst]
    split at h
    · rename_i hpre
      cases h
      have hpre := List.isPrefixOf_iff_prefix.mp hpre
      have hlong : pat <+: c :: (s ++ t) := hpre.trans (List.prefix_append (c :: s) t)
      rw [if_pos (List.isPrefixOf_iff_prefix.mpr hlong), ← List.cons_append,
        List.drop_append_of_le_length hpre.length_le]
    · rename_i hpre
      obtain ⟨⟨before', after'⟩, hfirst, heq⟩ := Option.map_eq_some_iff.mp h
      cases heq
      -- the pattern has an occurrence further on, so the text is long enough for it to be found here already
      have hlong : ¬pat.isPrefixOf (c :: (s ++ t)) = true := by
        intro hlong
        have hlength := splitFirst_length hfirst
        refine hpre (List.isPrefixOf_iff_prefix.mpr ?_)
        exact List.prefix_of_prefix_length_le (List.isPrefixOf_iff_prefix.mp hlong)
          (List.prefix_append (c :: s) t) (by rw [List.length_cons]; omega)
      rw [if_neg hlong, ih hfirst]
      rfl

/-- The first occurrence is where the pattern is not yet complete before. -/
theorem splitFirst_of_not_infix (hpat : pat ≠ []) (h : ¬pat <:+: before ++ pat.dropLast) :
    splitFirst pat (before ++ (pat ++ after)) = some (before, after) := by
  induction before with
  | nil =>
    have hpre : pat.isPrefixOf (pat ++ after) = true := List.isPrefixOf_iff_prefix.mpr (List.prefix_append _ _)
    obtain ⟨c, rest, hcons⟩ := List.exists_cons_of_ne_nil hpat
    rw [List.nil_append, hcons, List.cons_append, splitFirst, ← List.cons_append, ← hcons, if_pos hpre,
      List.drop_left]
  | cons c before ih =>
    -- an occurrence here would be complete before the last character of the given one
    have hno : ¬pat.isPrefixOf (c :: (before ++ (pat ++ after))) = true := by
      intro hpre
      have hpre := List.isPrefixOf_iff_prefix.mp hpre
      have hshort : c :: before ++ pat.dropLast <+: c :: (before ++ (pat ++ after)) := by
        obtain ⟨last, hlast⟩ : pat.dropLast <+: pat ++ after := (List.dropLast_prefix pat).trans (List.prefix_append _ _)
        exact ⟨last, by rw [← hlast]; simp⟩
      refine h (List.prefix_of_prefix_length_le hpre hshort ?_).isInfix
      have hpos := List.length_pos_iff.mpr hpat
      simp only [List.cons_append, List.length_cons, List.length_append, List.length_dropLast]
      omega
    rw [List.cons_append, splitFirst, if_neg hno, ih fun hin => h (hin.trans (List.suffix_cons c _).isInfix)]
    rfl

/-- There is no occurrence before the first one. -/
theorem not_infix_of_splitFirst (hpat : pat ≠ []) (h : splitFirst pat s = some (before, after)) : ¬pat <:+: before := by
  induction s generalizing before with
  | nil =>
    rw [splitFirst, if_neg (by simpa using hpat)] at h
    cases h
  | cons c s ih =>
    rw [splitFirst] at h
    split at h
    · cases h
      simpa using hpat
    · rename_i hpre
      obtain ⟨⟨before', after'⟩, hfirst, heq⟩ := Option.map_eq_some_iff.mp h
      cases heq
      intro hin
      rcases List.infix_cons_iff.mp hin with hstart | hin
      · refine hpre (List.isPrefixOf_iff_prefix.mpr (hstart.trans ?_))
        rw [splitFirst_eq_append hfirst, ← List.cons_append]
        exact List.prefix_append _ _
      · exact ih hfirst hin

/-- There is an occurrence if the text contains the pattern. -/
theorem splitFirst_isSome : (splitFirst pat s).isSome = true ↔ pat <:+: s := by
  constructor
  · intro h
    obtain ⟨⟨before, after⟩, hfirst⟩ := Option.isSome_iff_exists.mp h
    exact ⟨before, after, by rw [splitFirst_eq_append hfirst, List.append_assoc]⟩
  · intro h
    induction s with
    | nil =>
      rw [List.infix_nil.mp h]
      rfl
    | cons c s ih =>
      rw [splitFirst]
      split
      · rfl
      · rename_i hpre
        rcases List.infix_cons_iff.mp h with hpre' | hinfix
        · exact absurd (List.isPrefixOf_iff_prefix.mpr hpre') hpre
        · rw [Option.isSome_map]
          exact ih hinfix

theorem contains_iff {pat : String} : contains s pat = true ↔ pat.toList <:+: s := splitFirst_isSome

theorem contains_append_left {pat : String} (h : contains s pat = true) : contains (s ++ t) pat = true :=
  contains_iff.mpr ((contains_iff.mp h).trans (List.prefix_append s t).isInfix)

theorem contains_append_right {pat : String} (h : contains t pat = true) : contains (s ++ t) pat = true :=
  contains_iff.mpr ((contains_iff.mp h).trans (List.suffix_append s t).isInfix)

/-! ## Prefixes -/

theorem startsWith_iff {pat : String} : startsWith s pat = true ↔ pat.toList <+: s := List.isPrefixOf_iff_prefix

theorem startsWith_append {pat : String} (h : startsWith s pat = true) : startsWith (s ++ t) pat = true :=
  startsWith_iff.mpr ((startsWith_iff.mp h).trans (List.prefix_append s t))

/-! ## What cannot reach into the next text -/

/-- A pattern whose last character the next text does not have ends before it. -/
theorem infix_of_append (first : Str) {c : Char} (hc : c ∉ t) (h : first ++ [c] <:+: s ++ t) : first ++ [c] <:+: s := by
  obtain ⟨a, b, hab⟩ := h
  rcases List.append_eq_append_iff.mp hab with ⟨rest, rfl, -⟩ | ⟨rest, hsplit, rfl⟩
  · exact ⟨a, rest, rfl⟩
  rcases List.eq_nil_or_concat' rest with rfl | ⟨init, x, rfl⟩
  · rw [List.append_nil] at hsplit
    exact ⟨a, [], by rw [List.append_nil, hsplit]⟩
  · have hlast := congrArg List.getLast? hsplit
    simp only [← List.append_assoc, List.getLast?_concat] at hlast
    simp [Option.some.inj hlast] at hc

/-- A pattern that has the first character of the next text at its beginning only does not reach into it. -/
theorem prefix_of_append {k c : Char} {rest : Str} (hc : c ∉ rest) (hs : s ≠ []) (h : k :: rest <+: s ++ c :: t) :
    k :: rest <+: s := by
  obtain ⟨b, hb⟩ := h
  rcases List.append_eq_append_iff.mp hb with ⟨rest', rfl, -⟩ | ⟨rest', hsplit, hnext⟩
  · exact List.prefix_append _ _
  · cases rest' with
    | nil => exact ⟨[], by simpa using hsplit⟩
    | cons y rest' =>
      obtain ⟨rfl, -⟩ := List.cons.inj hnext
      cases s with
      | nil => exact absurd rfl hs
      | cons x s =>
        obtain ⟨-, rfl⟩ := List.cons.inj hsplit
        simp at hc

/-! ## Patterns that do not overlap -/

/-- A pattern that has its first character once does not overlap with itself. -/
theorem eq_nil_or_append {k : Char} {rest m : Str} (hk : k ∉ rest)
    (h : k :: rest ++ s = m ++ (k :: rest ++ t)) : m = [] ∨ ∃ m', m = k :: rest ++ m' := by
  rcases List.append_eq_append_iff.mp h with ⟨m', rfl, -⟩ | ⟨tail, hsplit, hnext⟩
  · exact .inr ⟨m', rfl⟩
  cases tail with
  | nil => exact .inr ⟨[], by simpa using hsplit.symm⟩
  | cons b tail =>
    obtain ⟨rfl, -⟩ := List.cons.inj hnext
    cases m with
    | nil => exact .inl rfl
    | cons x m =>
      obtain ⟨-, rfl⟩ := List.cons.inj hsplit
      simp at hk

/-- The first occurrence of such a pattern is a given one, or comes before it. -/
theorem splitFirst_of_occurrence {k : Char} {rest first last : Str} (hk : k ∉ rest)
    (h : splitFirst (k :: rest) (first ++ (k :: rest ++ last)) = some (before, after)) :
    (before = first ∧ after = last) ∨ ∃ m, first = before ++ (k :: rest ++ m) ∧ after = m ++ (k :: rest ++ last) := by
  have hnone := not_infix_of_splitFirst (by simp) h
  have heq := splitFirst_eq_append h
  rcases List.append_eq_append_iff.mp heq with ⟨m, rfl, hm⟩ | ⟨m, rfl, hm⟩
  · -- it cannot come later, as there is no occurrence before the first one
    rcases eq_nil_or_append hk hm with rfl | ⟨m', rfl⟩
    · exact .inl ⟨List.append_nil _, (List.append_cancel_left hm).symm⟩
    · exact absurd ⟨first, m', (List.append_assoc ..)⟩ hnone
  · rcases eq_nil_or_append hk hm with rfl | ⟨m', rfl⟩
    · exact .inl ⟨(List.append_nil _).symm, List.append_cancel_left hm⟩
    · refine .inr ⟨m', rfl, ?_⟩
      rw [List.append_assoc] at hm
      exact List.append_cancel_left hm

/-! ## Leading whitespace -/

theorem trimStart_append (h : trimStart s ≠ []) : trimStart (s ++ t) = trimStart s ++ t := by
  unfold trimStart at h ⊢
  rw [List.dropWhile_append, if_neg (by simpa using h)]

theorem trimStart_append_of_blank (h : trimStart s = []) : trimStart (s ++ t) = trimStart t := by
  unfold trimStart at h ⊢
  rw [List.dropWhile_append, if_pos (by simpa using h)]

@[simp] theorem trimStart_trimStart : trimStart (trimStart s) = trimStart s := List.dropWhile_idempotent _ _

theorem trimStart_length_le : (trimStart s).length ≤ s.length := List.length_dropWhile_le _ s

/-! ## Trimming -/

section Trimming

variable {c : Char} {q : Str}

/-- Characters at the end that are something else stop the trimming. -/
theorem trimEndMatches_append (hq : ∀ d ∈ q, d = c) (ht : t ≠ []) (hc : c ∉ t) :
    trimEndMatches c (s ++ (t ++ q)) = s ++ t := by
  obtain ⟨first, last, rfl⟩ := (List.eq_nil_or_concat' t).resolve_left ht
  have hlast : last ≠ c := by
    rintro rfl
    simp at hc
  have hdrop : (q.reverse ++ (last :: (first.reverse ++ s.reverse))).dropWhile (· == c) =
      last :: (first.reverse ++ s.reverse) := by
    rw [List.dropWhile_append_of_pos (by simpa using hq), List.dropWhile_cons_of_neg (by simpa using hlast)]
  rw [trimEndMatches]
  have hrev : (s ++ (first ++ [last] ++ q)).reverse = q.reverse ++ (last :: (first.reverse ++ s.reverse)) := by simp
  rw [hrev, hdrop]
  simp

/-- Characters at the beginning go as far as there is another one. -/
theorem dropWhile_append_stop {stop : Char} (hstop : c ≠ stop) :
    (s ++ stop :: t).dropWhile (· == c) = s.dropWhile (· == c) ++ stop :: t := by
  rw [List.dropWhile_append]
  split
  · rename_i hall
    rw [List.isEmpty_iff.mp hall, List.dropWhile_cons_of_neg (by simpa using hstop.symm), List.nil_append]
  · rfl

/-- Characters around a text that has none of them go. -/
theorem trimMatches_name (hq : ∀ d ∈ q, d = c) (ht : t ≠ []) (hc : c ∉ t) : trimMatches c (q ++ (t ++ q)) = t := by
  obtain ⟨d, t', rfl⟩ := List.exists_cons_of_ne_nil ht
  have hd : d ≠ c := by
    rintro rfl
    simp at hc
  rw [trimMatches, List.dropWhile_append_of_pos (by simpa using hq), List.cons_append,
    List.dropWhile_cons_of_neg (by simpa using hd)]
  exact trimEndMatches_append (s := []) hq ht hc

/-- Where another character stands between, both sides are trimmed by themselves. -/
theorem trimMatches_stop (stop : Char) (inner : Str) (hstop : c ≠ stop) (hq : ∀ d ∈ q, d = c) (ht : t ≠ [])
    (hc : c ∉ t) :
    trimMatches c (s ++ stop :: (inner ++ (t ++ q))) = s.dropWhile (· == c) ++ stop :: (inner ++ t) := by
  rw [trimMatches, dropWhile_append_stop hstop]
  have htext : s.dropWhile (· == c) ++ stop :: (inner ++ (t ++ q)) =
      (s.dropWhile (· == c) ++ stop :: inner) ++ (t ++ q) := by simp
  rw [htext, trimEndMatches_append hq ht hc]
  simp

/-- What is behind the last of a character, -/
theorem behind_last (hc : c ∉ t) : ((s ++ c :: t).reverse.takeWhile (· != c)).reverse = t := by
  have hrev : (s ++ c :: t).reverse = t.reverse ++ c :: s.reverse := by simp
  rw [hrev, List.takeWhile_append_of_pos, List.takeWhile_cons_of_neg (by simp), List.append_nil, List.reverse_reverse]
  intro d hd
  rw [bne_iff_ne]
  rintro rfl
  exact hc (List.mem_reverse.mp hd)

/-- or everything if there is none. -/
theorem behind_none (hc : c ∉ t) : (t.reverse.takeWhile (· != c)).reverse = t := by
  have hall : t.reverse.takeWhile (· != c) = t.reverse := by
    rw [List.takeWhile_eq_self_iff]
    intro d hd
    rw [bne_iff_ne]
    rintro rfl
    exact hc (List.mem_reverse.mp hd)
  rw [hall, List.reverse_reverse]

end Trimming

/-! ## Case -/

section Case

variable {c : Char}

/-- Case does not change what is no letter. -/
theorem asciiUpper_of_not_lower (h : ¬('a' ≤ c ∧ c ≤ 'z')) : asciiUpper c = c := if_neg h

theorem asciiUpper_of_blank (h : isWhitespace c = true) : asciiUpper c = c := by
  refine asciiUpper_of_not_lower fun ⟨hle, hge⟩ => ?_
  have hlow : 97 ≤ c.toNat := hle
  have hhigh : c.toNat ≤ 122 := hge
  simp only [isWhitespace, Bool.or_eq_true, Bool.and_eq_true, decide_eq_true_eq, beq_iff_eq] at h
  omega

theorem upperChar_of_ascii (h : c.toNat < 128) : upperChar c = [asciiUpper c] := by
  have hnone : ∀ n < 128, upperSpecial.lookup n = none := by decide
  rw [upperChar, hnone _ h]

theorem ascii_of_asciiUpper (h : (asciiUpper c).toNat < 128) : c.toNat < 128 := by
  rw [asciiUpper] at h
  split at h
  · rename_i hlower
    have hhigh : c.toNat ≤ 122 := hlower.2
    omega
  · exact h

/-- Blanks have no case. -/
theorem upperChar_of_blank (h : isWhitespace c = true) : upperChar c = [c] := by
  have hnone : upperSpecial.lookup c.toNat = none := by
    have htable : ∀ e ∈ upperSpecial, isWhitespace (Char.ofNat e.1) = false := by decide
    rw [List.lookup_eq_none_iff]
    rintro e he
    rw [bne_iff_ne]
    intro heq
    have hblank := htable e he
    rw [← heq, Char.ofNat_toNat, h] at hblank
    cases hblank
  rw [upperChar, hnone, asciiUpper_of_blank h]

theorem toUppercase_of_single (f : Char → Char) (h : ∀ c ∈ s, upperChar c = [f c]) : toUppercase s = s.map f := by
  rw [List.map_eq_flatMap]
  exact List.flatMap_congr h

theorem toUppercase_append : toUppercase (s ++ t) = toUppercase s ++ toUppercase t := List.flatMap_append

/-- Where ASCII upper case shows a pattern of ASCII, Unicode upper case does. -/
theorem contains_toUppercase {pat : String} (hpat : ∀ k ∈ pat.toList, k.toNat < 128)
    (h : contains (toAsciiUppercase s) pat = true) : contains (toUppercase s) pat = true := by
  obtain ⟨a, b, hab⟩ := contains_iff.mp h
  obtain ⟨s₁, s₂, rfl, hs₁, rfl⟩ := List.map_eq_append_iff.mp hab.symm
  obtain ⟨a', m, rfl, rfl, hm⟩ := List.map_eq_append_iff.mp hs₁
  have hupper : toUppercase m = pat.toList := by
    rw [← hm]
    refine toUppercase_of_single _ fun c hc => upperChar_of_ascii (ascii_of_asciiUpper (hpat _ ?_))
    rw [← hm]
    exact List.mem_map_of_mem hc
  refine contains_iff.mpr ⟨toUppercase a', toUppercase s₂, ?_⟩
  rw [toUppercase_append, toUppercase_append, hupper]

end Case

end TurbineProxy.Str
