import TurbineProxy.Fingerprints
import TurbineProxy.LockingReads

/-!
# The hint and its place

`inject_timeout_hint` with the slice it takes, which panics inside a character. The hint belongs directly behind the
keyword `SELECT`. The code looks for the first blank or slash instead, so that it depends on what follows the keyword
where the hint goes (`hint_safe_iff`).
-/

namespace TurbineProxy

open Str

/-! ## The code -/

/-- `str::split_at`; `none` for a panic. -/
def splitAtChecked (n : Nat) : Str → Option (Str × Str)
  | [] => if n = 0 then some ([], []) else none
  | c :: s =>
    if n = 0 then some ([], c :: s)
    else if n < (utf8Char c).length then none
    else (splitAtChecked (n - (utf8Char c).length) s).map fun r => (c :: r.1, r.2)

/-- The characters before which the hint is put. -/
def endsKeyword (c : Char) : Bool := isAsciiWhitespace c || c == '/'

/-- The hint for a time limit. -/
def timeoutHint (ms : Nat) : Str := "/*+ MAX_EXECUTION_TIME(".toList ++ decimal ms ++ ") */ ".toList

/-- `inject_timeout_hint`; `none` for a panic. -/
def injectHint (sql : Str) (ms : Nat) : Option Str :=
  let trimmed := trimStart sql
  if !startsWith (toUppercase trimmed) "SELECT" then some sql
  else if contains sql "MAX_EXECUTION_TIME" then some sql
  else
    let word := trimmed.takeWhile fun c => !endsKeyword c
    let selectEnd := if word = trimmed then 6 else max (toUtf8 word).length 6
    (splitAtChecked selectEnd trimmed).map fun halves => halves.1 ++ timeoutHint ms ++ halves.2

theorem splitAtByte_of_checked {n : Nat} {s : Str} {r : Str × Str} (h : splitAtChecked n s = some r) :
    splitAtByte n s = r := by
  induction s generalizing n r with
  | nil =>
    rw [splitAtChecked] at h
    split at h
    · exact Option.some.inj h
    · cases h
  | cons c s ih =>
    rw [splitAtChecked] at h
    rw [splitAtByte]
    split
    · rename_i hn
      rw [if_pos hn] at h
      exact Option.some.inj h
    · rename_i hn
      rw [if_neg hn] at h
      split at h
      · cases h
      · obtain ⟨r', hr', rfl⟩ := Option.map_eq_some_iff.mp h
        rw [ih hr']

/-- Where there is no panic, this is the text the rewriter goes on with. -/
theorem injectTimeoutHint_of_checked {sql out : Str} {ms : Nat} (h : injectHint sql ms = some out) :
    injectTimeoutHint sql ms = out := by
  rw [injectHint] at h
  rw [injectTimeoutHint]
  dsimp only at h ⊢
  split at h
  · rename_i hselect
    rw [if_pos hselect]
    exact Option.some.inj h
  · rename_i hselect
    rw [if_neg hselect]
    split at h
    · rename_i hhint
      rw [if_pos hhint]
      exact Option.some.inj h
    · rename_i hhint
      rw [if_neg hhint]
      obtain ⟨halves, hhalves, rfl⟩ := Option.map_eq_some_iff.mp h
      exact congrArg (fun r : Str × Str => r.1 ++ timeoutHint ms ++ r.2) (splitAtByte_of_checked hhalves)

/-! ## A keyword and what follows it -/

section Keyword

variable {sql k r : Str}

/-- Between two characters a text may be split. -/
theorem splitAtChecked_append (s t : Str) : splitAtChecked (toUtf8 s).length (s ++ t) = some (s, t) := by
  induction s with
  | nil =>
    cases t with
    | nil => rfl
    | cons c t => rfl
  | cons c s ih =>
    have hpos := List.length_pos_of_ne_nil (utf8Char_ne_nil c)
    rw [List.cons_append, splitAtChecked, toUtf8_cons, List.length_append, if_neg (by omega), if_neg (by omega),
      Nat.add_sub_cancel_left, ih]
    rfl

/-- The letters of the keyword, in any case. -/
def IsSelect (k : Str) : Prop := toAsciiUppercase k = "SELECT".toList

/-- The keyword stands at the beginning, as a word of its own. -/
def BeginsWithSelect (s : Str) : Prop := ∃ k r, s = k ++ r ∧ IsSelect k ∧ ∀ c ∈ r.head?, isLexWordChar c = false

theorem IsSelect.ascii (h : IsSelect k) : ∀ c ∈ k, c.toNat < 128 := by
  intro c hc
  have hletters : ∀ d ∈ "SELECT".toList, d.toNat < 128 := forall_of_all (by decide)
  apply ascii_of_asciiUpper
  apply hletters
  rw [← show toAsciiUppercase k = "SELECT".toList from h]
  exact List.mem_map_of_mem hc

theorem IsSelect.length (h : IsSelect k) : k.length = 6 := by
  have hlength := congrArg List.length h
  rwa [toAsciiUppercase, List.length_map] at hlength

theorem IsSelect.utf8_length (h : IsSelect k) : (toUtf8 k).length = 6 := by
  rw [toUtf8_of_ascii h.ascii, List.length_map, h.length]

/-- No letter of the keyword ends it. -/
theorem IsSelect.not_ends (h : IsSelect k) : ∀ c ∈ k, endsKeyword c = false := by
  intro c hc
  have hletters : ∀ d ∈ "SELECT".toList, endsKeyword d = false := forall_of_all (by decide)
  have hends : endsKeyword (asciiUpper c) = false := by
    apply hletters
    rw [← show toAsciiUppercase k = "SELECT".toList from h]
    exact List.mem_map_of_mem hc
  by_contra hc'
  have hsame : asciiUpper c = c := by
    apply asciiUpper_of_not_lower
    rintro ⟨hlow, -⟩
    have hlow' : 97 ≤ c.toNat := hlow
    rw [Bool.not_eq_false, endsKeyword, Bool.or_eq_true, isAsciiWhitespace, beq_iff_eq] at hc'
    simp only [Bool.or_eq_true, beq_iff_eq] at hc'
    rcases hc' with hc' | rfl
    · omega
    · exact absurd hlow' (by decide)
  rw [hsame] at hends
  exact hc' hends

theorem IsSelect.startsWith (h : IsSelect k) (r : Str) : startsWith (toUppercase (k ++ r)) "SELECT" = true := by
  have hupper : toUppercase k = "SELECT".toList :=
    (toUppercase_of_single _ fun c hc => upperChar_of_ascii (h.ascii c hc)).trans h
  rw [startsWith_iff, toUppercase_append, hupper]
  exact List.prefix_append _ _

/-- What the hint is put behind besides the keyword: nothing, unless a blank or a slash follows later. -/
def behindKeyword (r : Str) : Str := if r.all (!endsKeyword ·) then [] else r.takeWhile (!endsKeyword ·)

theorem behindKeyword_append (r : Str) : behindKeyword r ++ r.drop (behindKeyword r).length = r := by
  rw [behindKeyword]
  split
  · rfl
  · have hdrop := List.takeWhile_append_dropWhile (p := fun c => !endsKeyword c) (l := r)
    nth_rewrite 3 [← hdrop]
    rw [List.drop_left, hdrop]

theorem behindKeyword_not_ends (r : Str) : ∀ c ∈ behindKeyword r, endsKeyword c = false := by
  intro c hc
  rw [behindKeyword] at hc
  split at hc
  · cases hc
  · simpa using List.mem_takeWhile_imp hc

/-- Where the hint goes behind a keyword. -/
theorem injectHint_keyword (ms : Nat) (hk : IsSelect k) (htrim : trimStart sql = k ++ r)
    (hhint : contains sql "MAX_EXECUTION_TIME" = false) :
    injectHint sql ms = some (k ++ behindKeyword r ++ timeoutHint ms ++ r.drop (behindKeyword r).length) := by
  have hword : (k ++ r).takeWhile (fun c => !endsKeyword c) = k ++ r.takeWhile (fun c => !endsKeyword c) :=
    List.takeWhile_append_of_pos fun c hc => by rw [hk.not_ends c hc]; rfl
  have hselect := hk.startsWith r
  have hplace : (if (k ++ r).takeWhile (fun c => !endsKeyword c) = k ++ r then 6
      else max (toUtf8 ((k ++ r).takeWhile fun c => !endsKeyword c)).length 6) =
        (toUtf8 (k ++ behindKeyword r)).length := by
    rw [hword, behindKeyword]
    by_cases hall : r.all (!endsKeyword ·) = true
    · have hself : r.takeWhile (fun c => !endsKeyword c) = r :=
        List.takeWhile_eq_self_iff.mpr (List.all_eq_true.mp hall)
      rw [if_pos (by rw [hself]), if_pos hall, List.append_nil, hk.utf8_length]
    · have hself : r.takeWhile (fun c => !endsKeyword c) ≠ r := fun h =>
        hall (List.all_eq_true.mpr (List.takeWhile_eq_self_iff.mp h))
      rw [if_neg fun h => hself (List.append_cancel_left h), if_neg hall, toUtf8_append, List.length_append,
      hk.utf8_length]
      omega
  have hsplit : splitAtChecked (toUtf8 (k ++ behindKeyword r)).length (k ++ r) =
      some (k ++ behindKeyword r, r.drop (behindKeyword r).length) := by
    nth_rewrite 2 [← behindKeyword_append r]
    rw [← List.append_assoc]
    exact splitAtChecked_append _ _
  rw [injectHint, htrim]
  dsimp only
  rw [hselect, Bool.not_true, if_neg Bool.false_ne_true, hhint, if_neg Bool.false_ne_true, hplace, hsplit]
  rfl

end Keyword

/-! ## Safety of the hint -/

section Safety

variable {sql : Str} (ms : Nat)

/-- A text that has the hint stays as it is. -/
theorem injectHint_of_contains (h : contains sql "MAX_EXECUTION_TIME" = true) : injectHint sql ms = some sql := by
  rw [injectHint]
  dsimp only
  rw [h, if_pos rfl, ite_self]

theorem injectHint_of_not_select (h : startsWith (toUppercase (trimStart sql)) "SELECT" = false) :
    injectHint sql ms = some sql := by
  rw [injectHint]
  dsimp only
  rw [h, Bool.not_false, if_pos rfl]

theorem infix_middle {p h : Str} (s t d e : Str) {a b : Str} (hsplit : h = a ++ (p ++ b)) :
    p <:+: s ++ (h ++ d ++ e) ++ t := by
  subst hsplit
  exact ⟨s ++ a, b ++ (d ++ (e ++ t)), by simp only [List.append_assoc]⟩

theorem contains_hint (s t : Str) : contains (s ++ timeoutHint ms ++ t) "MAX_EXECUTION_TIME" = true := by
  have hsplit : "/*+ MAX_EXECUTION_TIME(".toList = "/*+ ".toList ++ ("MAX_EXECUTION_TIME".toList ++ "(".toList) := by
    decide
  exact contains_iff.mpr (infix_middle s t (decimal ms) ") */ ".toList hsplit)

/-- What the injection of a hint is to do: a second one does nothing; it stands directly behind the keyword, and
without it the text is what it was, less its leading blanks; and no other text changes. -/
def HintSafe (ms : Nat) (sql : Str) : Prop :=
  ∃ out, injectHint sql ms = some out ∧ injectHint out ms = some out ∧
    (BeginsWithSelect (trimStart sql) → contains sql "MAX_EXECUTION_TIME" = false →
      ∃ k r, trimStart sql = k ++ r ∧ IsSelect k ∧ out = k ++ timeoutHint ms ++ r) ∧
    (¬(BeginsWithSelect (trimStart sql) ∧ contains sql "MAX_EXECUTION_TIME" = false) → out = sql)

/-- The text has the hint, or does not begin with the letters of `SELECT`; or they are the keyword, and a blank or a
slash follows at once or nowhere. -/
def HintFits (sql : Str) : Prop :=
  contains sql "MAX_EXECUTION_TIME" = true ∨ startsWith (toUppercase (trimStart sql)) "SELECT" = false ∨
    BeginsWithSelect (trimStart sql) ∧
      ((∀ c ∈ ((trimStart sql).drop 6).head?, endsKeyword c = true) ∨
        ∀ c ∈ (trimStart sql).drop 6, endsKeyword c = false)

theorem drop_keyword {k r : Str} (h : IsSelect k) : (k ++ r).drop 6 = r := by
  rw [← h.length]
  exact List.drop_left

/-- The hint stands directly behind the keyword exactly if nothing comes between. -/
theorem behindKeyword_eq_nil_iff (r : Str) : behindKeyword r = [] ↔
    (∀ c ∈ r.head?, endsKeyword c = true) ∨ ∀ c ∈ r, endsKeyword c = false := by
  rw [behindKeyword]
  by_cases hall : r.all (!endsKeyword ·) = true
  · rw [if_pos hall]
    exact iff_of_true rfl (.inr (by simpa using hall))
  · rw [if_neg hall, or_iff_left (by simpa using hall)]
    cases r with
    | nil => exact absurd rfl hall
    | cons c r =>
      rw [List.takeWhile_cons]
      cases hc : endsKeyword c with
      | true => simp [hc]
      | false => simp [hc]

/-- What is put in front of the hint shows. -/
theorem nil_of_hint_moved {x y : Str} (hx : ∀ c ∈ x, endsKeyword c = false)
    (h : x ++ timeoutHint ms ++ y = timeoutHint ms ++ (x ++ y)) : x = [] := by
  cases x with
  | nil => rfl
  | cons c x =>
    have hhead : c = '/' := (List.cons.inj h).1
    have hends := hx c List.mem_cons_self
    rw [hhead] at hends
    exact absurd hends (by decide)

/-- Behind a keyword, the hint is safe exactly if nothing comes between. -/
theorem hintSafe_keyword {k r : Str} (hk : IsSelect k) (hr : ∀ c ∈ r.head?, isLexWordChar c = false)
    (htrim : trimStart sql = k ++ r) (hhint : contains sql "MAX_EXECUTION_TIME" = false) :
    HintSafe ms sql ↔ behindKeyword r = [] := by
  have hout := injectHint_keyword ms hk htrim hhint
  have hbegins : BeginsWithSelect (trimStart sql) := ⟨k, r, htrim, hk, hr⟩
  constructor
  · rintro ⟨out, hout', -, hplaced, -⟩
    obtain ⟨k', r', htrim', hk', heq⟩ := hplaced hbegins hhint
    obtain ⟨rfl, rfl⟩ := List.append_inj (htrim.symm.trans htrim') (hk.length.trans hk'.length.symm)
    obtain rfl := Option.some.inj (hout.symm.trans hout')
    apply nil_of_hint_moved ms (behindKeyword_not_ends r)
    rw [behindKeyword_append]
    simpa only [List.append_assoc, List.append_cancel_left_eq] using heq
  · intro hnil
    rw [hnil, List.append_nil, List.length_nil, List.drop_zero] at hout
    refine ⟨_, hout, injectHint_of_contains ms (contains_hint ms k r), fun _ _ => ⟨k, r, htrim, hk, rfl⟩,
    fun hnot => ?_⟩
    exact absurd ⟨hbegins, hhint⟩ hnot

/-- **The hint is safe** if, and only if, it fits. -/
theorem hint_safe_iff (sql : Str) : HintSafe ms sql ↔ HintFits sql := by
  rw [HintFits]
  cases hhint : contains sql "MAX_EXECUTION_TIME" with
  | true =>
    have hout := injectHint_of_contains ms hhint
    refine iff_of_true ⟨sql, hout, hout, fun _ h => ?_, fun _ => rfl⟩ (.inl rfl)
    cases hhint.symm.trans h
  | false =>
    rw [or_iff_right Bool.false_ne_true]
    cases hselect : startsWith (toUppercase (trimStart sql)) "SELECT" with
    | false =>
      have hout := injectHint_of_not_select ms hselect
      refine iff_of_true ⟨sql, hout, hout, fun hbegins _ => ?_, fun _ => rfl⟩ (.inl rfl)
      obtain ⟨k, r, htrim, hk, -⟩ := hbegins
      rw [htrim, hk.startsWith r] at hselect
      cases hselect
    | true =>
      rw [or_iff_right (fun h => Bool.false_ne_true h.symm)]
      by_cases hbegins : BeginsWithSelect (trimStart sql)
      · obtain ⟨k, r, htrim, hk, hr⟩ := hbegins
        rw [hintSafe_keyword ms hk hr htrim hhint, behindKeyword_eq_nil_iff, and_iff_right ⟨k, r, htrim, hk, hr⟩, htrim,
          drop_keyword hk]
      · refine iff_of_false ?_ fun h => hbegins h.1
        rintro ⟨out, hout, -, -, hother⟩
        obtain rfl := hother fun h => hbegins h.1
        -- the text changes, although its first word is another one
        rw [injectHint] at hout
        dsimp only at hout
        rw [hselect, Bool.not_true, if_neg Bool.false_ne_true, hhint, if_neg Bool.false_ne_true] at hout
        obtain ⟨halves, -, heq⟩ := Option.map_eq_some_iff.mp hout
        have hcontains := contains_hint ms halves.1 halves.2
        rw [heq, hhint] at hcontains
        cases hcontains

/-- Behind an asterisk the hint comes too late. -/
theorem hint_unsafe_asterisk : ¬HintSafe 100 "SELECT* FROM t".toList := by
  have hkeyword : HintSafe 100 "SELECT* FROM t".toList ↔ behindKeyword "* FROM t".toList = [] := by
    have hk : toAsciiUppercase "SELECT".toList = "SELECT".toList := by decide
    apply hintSafe_keyword 100 hk
    · intro c hc
      obtain rfl : '*' = c := Option.some.inj hc
      decide
    · decide
    · decide +kernel
  rw [hkeyword]
  decide

end Safety

end TurbineProxy
