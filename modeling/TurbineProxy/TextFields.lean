import TurbineProxy.GroupReplication
import TurbineProxy.TextSearch

/-!
# Fields of a text

What `str` offers to take a line apart: its words, the part before the last of a character, unsigned numbers.
-/

namespace TurbineProxy

namespace Str

/-- The pieces between separators, without the empty ones. -/
def fields (sep : Char → Bool) (s : Str) : List Str := (s.splitOnP sep).filter (!·.isEmpty)

/-- `str::split_whitespace` -/
def splitWhitespace (s : Str) : List Str := fields isWhitespace s

/-- `u8::is_ascii_whitespace` -/
def isAsciiWhitespace (c : Char) : Bool := [' ', '\t', '\n', '\x0c', '\r'].contains c

/-- `str::split_ascii_whitespace` -/
def splitAsciiWhitespace (s : Str) : List Str := fields isAsciiWhitespace s

/-- `str::rsplit_once` with one character -/
def rsplitOnce (c : Char) (s : Str) : Option (Str × Str) :=
  let behind := (s.reverse.takeWhile (· != c)).reverse
  if behind.length < s.length then some (s.take (s.length - behind.length - 1), behind) else none

/-- `str::parse` of an unsigned integer: a plus sign is allowed, and what reaches the bound does not fit. -/
def parseUnsigned (bound : Nat) (s : Str) : Option Nat :=
  let digits := if s.head? = some '+' then s.tail else s
  if digits.isEmpty || !digits.all Char.isDigit then none
  else if Nat.ofDigitChars 10 digits 0 < bound then some (Nat.ofDigitChars 10 digits 0)
  else none

/-- Something, and no white space in it. -/
def IsWord (w : Str) : Prop := w ≠ [] ∧ ∀ c ∈ w, isWhitespace c = false

/-- Words with a blank between any two of them. -/
def unwords (ws : List Str) : Str := List.intercalate [' '] ws

variable {sep : Char → Bool} {c : Char} {w s t : Str}

/-- A word and what is behind the separator. -/
theorem fields_cons (hw : w ≠ []) (hsep : ∀ c ∈ w, sep c = false) (hc : sep c = true) (s : Str) :
    fields sep (w ++ c :: s) = w :: fields sep s := by
  rw [fields, List.splitOnP_append_cons_of_forall_mem hsep c hc, List.filter_cons_of_pos, fields]
  simpa using hw

/-- A word without separators is the only field of itself. -/
theorem fields_word (hw : w ≠ []) (hsep : ∀ c ∈ w, sep c = false) : fields sep w = [w] := by
  rw [fields, List.splitOnP_eq_singleton hsep, List.filter_cons_of_pos, List.filter_nil]
  simpa using hw

theorem isAsciiWhitespace_of_not (h : isWhitespace c = false) : isAsciiWhitespace c = false := by
  by_contra hblank
  have hmem : c ∈ [' ', '\t', '\n', '\x0c', '\r'] := List.contains_iff_mem.mp (Bool.not_eq_false _ ▸ hblank)
  have hall : ∀ d ∈ [' ', '\t', '\n', '\x0c', '\r'], isWhitespace d = true := List.all_eq_true.mp (by decide)
  rw [hall c hmem] at h
  cases h

theorem isWord_of_all (hne : w.isEmpty = false) (hall : w.all (!isWhitespace ·) = true) : IsWord w := by
  refine ⟨by simpa using hne, fun c hc => ?_⟩
  simpa using List.all_eq_true.mp hall c hc

theorem unwords_cons_cons (w v : Str) (ws : List Str) : unwords (w :: v :: ws) = w ++ ' ' :: unwords (v :: ws) := by
  rw [unwords, List.intercalate_cons_cons, List.append_assoc]
  rfl

/-- Words are taken apart as they were put together. -/
theorem splitAsciiWhitespace_unwords {ws : List Str} (hws : ∀ w ∈ ws, IsWord w) :
    splitAsciiWhitespace (unwords ws) = ws := by
  have hsep : ∀ {w : Str}, IsWord w → ∀ c ∈ w, isAsciiWhitespace c = false :=
    fun hw c hc => isAsciiWhitespace_of_not (hw.2 c hc)
  induction ws with
  | nil => rfl
  | cons w ws ih =>
    obtain ⟨hw, hrest⟩ := List.forall_mem_cons.mp hws
    cases ws with
    | nil =>
      rw [unwords, List.intercalate_singleton]
      exact fields_word hw.1 (hsep hw)
    | cons v ws =>
      rw [unwords_cons_cons, splitAsciiWhitespace, fields_cons hw.1 (hsep hw) rfl]
      exact congrArg (w :: ·) (ih hrest)

theorem mem_intercalate {d : Char} {ws : List Str} (h : c ∈ List.intercalate [d] ws) : c = d ∨ ∃ w ∈ ws, c ∈ w := by
  induction ws with
  | nil => cases h
  | cons w ws ih =>
    cases ws with
    | nil =>
      rw [List.intercalate_singleton] at h
      exact .inr ⟨w, .head _, h⟩
    | cons v ws =>
      rw [List.intercalate_cons_cons, List.append_assoc, List.mem_append, List.singleton_append, List.mem_cons] at h
      rcases h with hw | hsep | hrest
      · exact .inr ⟨w, .head _, hw⟩
      · exact .inl hsep
      · exact (ih hrest).imp_right fun ⟨w', hw', hc⟩ => ⟨w', .tail _ hw', hc⟩

/-- Words end with a character that is not trimmed. -/
theorem unwords_concat {ws : List Str} (hne : ws ≠ []) (hws : ∀ w ∈ ws, IsWord w) :
    ∃ front last, unwords ws = front ++ [last] ∧ isWhitespace last = false := by
  induction ws with
  | nil => exact absurd rfl hne
  | cons w ws ih =>
    obtain ⟨hw, hrest⟩ := List.forall_mem_cons.mp hws
    cases ws with
    | nil =>
      obtain ⟨front, last, rfl⟩ := (List.eq_nil_or_concat' w).resolve_left hw.1
      exact ⟨front, last, by simp [unwords], hw.2 last (by simp)⟩
    | cons v ws =>
      obtain ⟨front, last, hsplit, hlast⟩ := ih (List.cons_ne_nil v ws) hrest
      exact ⟨w ++ ' ' :: front, last, by rw [unwords_cons_cons, hsplit]; simp, hlast⟩

/-- White space at the end is trimmed, and nothing else. -/
theorem trim_append_blank {front : Str} {first last : Char} (hs : s = front ++ [last]) (hhead : s.head? = some first)
    (hfirst : isWhitespace first = false) (hlast : isWhitespace last = false)
    (hblank : ∀ c ∈ t, isWhitespace c = true) : trim (s ++ t) = s := by
  have hstart : trimStart (s ++ t) = s ++ t := by
    cases s with
    | nil => cases hhead
    | cons d s =>
      cases hhead
      exact List.dropWhile_cons_of_neg (by simp [hfirst])
  have hend : (t.reverse ++ (last :: front.reverse)).dropWhile isWhitespace = last :: front.reverse := by
    rw [List.dropWhile_append_of_pos (by simpa using hblank), List.dropWhile_cons_of_neg (by simp [hlast])]
  have hrev : (s ++ t).reverse = t.reverse ++ (last :: front.reverse) := by simp [hs]
  rw [trim, hstart, hrev, hend, hs]
  simp

/-- The last of a character is found. -/
theorem rsplitOnce_append (hc : c ∉ t) (s : Str) : rsplitOnce c (s ++ c :: t) = some (s, t) := by
  have hlt : t.length < (s ++ c :: t).length := by
    simp only [List.length_append, List.length_cons]
    omega
  have htake : (s ++ c :: t).length - t.length - 1 = s.length := by
    simp only [List.length_append, List.length_cons]
    omega
  rw [rsplitOnce, behind_last hc]
  rw [if_pos hlt, htake, List.take_left]

/-- A number is read as it is written. -/
theorem parseUnsigned_decimal {bound n : Nat} (h : n < bound) : parseUnsigned bound (decimal n) = some n := by
  have hdigits : ∀ c ∈ decimal n, c.isDigit = true := fun c hc => isDigit_of_mem_decimal hc
  have hplus : (decimal n).head? ≠ some '+' := by
    intro hhead
    exact absurd (hdigits '+' (List.mem_of_mem_head? hhead)) (by decide)
  have hvalue : Nat.ofDigitChars 10 (decimal n) 0 = n := Nat.ofDigitChars_ten_toDigits
  rw [parseUnsigned, if_neg hplus]
  rw [if_neg, hvalue, if_pos h]
  simpa [decimal_ne_nil] using hdigits

end Str

end TurbineProxy
