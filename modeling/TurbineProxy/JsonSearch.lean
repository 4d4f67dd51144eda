import TurbineProxy.Json

/-!
# Searching a JSON text for a name

A library layer, independent of the proxy: what a search for a quoted name finds in a JSON text. It finds the names of
members and does not see which object they belong to, and it also finds strings that are the name, or end in a quote and
the name. Where the text has no such strings (`Token.Shows`), the places found are those of the members with the name,
in the order in which they are written (`suffixesAt_text`).
-/

namespace TurbineProxy.Json

/-- The ends of a text that begin with a pattern. -/
def suffixesAt (pat : List Char) : List Char → List (List Char)
  | [] => []
  | c :: s => if pat.isPrefixOf (c :: s) then (c :: s) :: suffixesAt pat s else suffixesAt pat s

/-- A name in quotes. -/
def needle (key : List Char) : List Char := '"' :: (key ++ ['"'])

/-- Letters and underscores, beginning with a letter, and neither the beginning of a literal nor the other way round. -/
def isKey (key : List Char) : Bool :=
  (key.head?.elim false fun c => 'a' ≤ c && c ≤ 'z') && key.all (fun c => 'a' ≤ c && c ≤ 'z' || c == '_') &&
    [Literal.null, .true, .false].all fun l => !key.isPrefixOf l.text && !l.text.isPrefixOf key

/-- A search for the name in quotes finds something in a string that is written so. -/
def hits (key raw : List Char) : Bool := raw == key || ('"' :: key).isSuffixOf raw

/-- The member that a token names. -/
def Token.member? : Token → Option Member
  | name m => some m
  | _ => none

/-- The token is a name. -/
def Token.isNamed (key : List Char) (tok : Token) : Bool := tok.member?.elim false (·.name.value == key)

/-- A search for the name finds the token exactly if it is the name. -/
def Token.Shows (key : List Char) : Token → Prop
  | string s => hits key s.raw = false
  | name m => hits key m.name.raw = true ∨ m.name.value = key → m.name.raw = key
  | _ => True

instance (key : List Char) : DecidablePred (Token.Shows key)
  | .string _ => inferInstanceAs (Decidable (_ = _))
  | .name _ => inferInstanceAs (Decidable (_ → _))
  | .mark _ => .isTrue trivial
  | .literal _ => .isTrue trivial
  | .blank _ => .isTrue trivial

/-- The members with a name, each with the tokens behind the name. -/
def namedTails (key : List Char) : List Token → List (Member × List Token)
  | [] => []
  | .name m :: ts => if m.name.value = key then (m, ts) :: namedTails key ts else namedTails key ts
  | _ :: ts => namedTails key ts

section Search

variable {key raw value x : List Char} {tok : Token} {ts : List Token}

theorem suffixesAt_cons_ne {c : Char} {s : List Char} (hc : c ≠ '"') :
    suffixesAt (needle key) (c :: s) = suffixesAt (needle key) s := by
  have hfront : (needle key).isPrefixOf (c :: s) = false := by
    rw [needle, List.isPrefixOf, beq_false_of_ne hc.symm, Bool.false_and]
  rw [suffixesAt, hfront]
  rfl

/-- There is nothing to find where no quotes are. -/
theorem suffixesAt_append {a s : List Char} (ha : '"' ∉ a) :
    suffixesAt (needle key) (a ++ s) = suffixesAt (needle key) s := by
  induction a with
  | nil => rfl
  | cons c a ih =>
    rw [List.cons_append, suffixesAt_cons_ne (fun h => ha (h ▸ .head a)), ih fun h => ha (.tail c h)]

/-- What follows from a key's characters. -/
theorem key_facts (hkey : isKey key = true) :
    '"' ∉ key ∧ '\\' ∉ key ∧ ∃ c rest, key = c :: rest ∧ 'a' ≤ c ∧ c ≤ 'z' := by
  simp only [isKey, Bool.and_eq_true] at hkey
  obtain ⟨⟨hhead, hall⟩, -⟩ := hkey
  have hall := List.all_eq_true.mp hall
  refine ⟨fun h => absurd (hall _ h) (by decide), fun h => absurd (hall _ h) (by decide), ?_⟩
  cases key with
  | nil => cases hhead
  | cons c rest => exact ⟨c, rest, rfl, by simpa using hhead⟩

/-- No tokens are written with the name and a quote in front. -/
theorem not_prefix_text (hkey : isKey key = true) (ts : List Token) : ¬ key ++ ['"'] <+: text ts := by
  intro h
  obtain ⟨-, -, c, rest, rfl, hlow, hhigh⟩ := key_facts hkey
  cases ts with
  | nil => exact absurd (List.prefix_nil.mp h) (by simp)
  | cons tok ts =>
    cases tok with
    | mark m =>
      obtain ⟨rfl, -⟩ := List.cons_prefix_cons.mp h
      cases m <;> exact absurd (And.intro hlow hhigh) (by decide)
    | blank b =>
      obtain ⟨rfl, -⟩ := List.cons_prefix_cons.mp h
      cases b <;> exact absurd (And.intro hlow hhigh) (by decide)
    | string s =>
      rw [text_string] at h
      obtain ⟨rfl, -⟩ := List.cons_prefix_cons.mp h
      exact absurd (And.intro hlow hhigh) (by decide)
    | name m =>
      rw [text_name] at h
      obtain ⟨rfl, -⟩ := List.cons_prefix_cons.mp h
      exact absurd (And.intro hlow hhigh) (by decide)
    | literal l =>
      -- of the key and the literal, none is the beginning of the other
      have hword : ∀ l' ∈ [Literal.null, .true, .false], l ≠ l' := by
        rintro l' hl' rfl
        simp only [isKey, Bool.and_eq_true] at hkey
        have hother := List.all_eq_true.mp hkey.2 l hl'
        rcases List.prefix_or_prefix_of_prefix ((List.prefix_append (c :: rest) ['"']).trans h)
          (List.prefix_append l.text (text ts)) with hle | hle
        · rw [List.isPrefixOf_iff_prefix.mpr hle] at hother
          cases hother
        · rw [List.isPrefixOf_iff_prefix.mpr hle, Bool.not_true, Bool.and_false] at hother
          cases hother
      cases l with
      | null => exact hword _ (by simp) rfl
      | true => exact hword _ (by simp) rfl
      | false => exact hword _ (by simp) rfl
      | number digits hdigits =>
        obtain ⟨d, digits, rfl, hd⟩ := hdigits.head
        obtain ⟨rfl, -⟩ := List.cons_prefix_cons.mp h
        rcases hd with rfl | hd
        · exact absurd (And.intro hlow hhigh) (by decide)
        · have hletter : 97 ≤ c.toNat := hlow
          have hdigit : 48 ≤ c.toNat ∧ c.toNat ≤ 57 := by simpa [Char.isDigit, UInt32.le_iff_toNat_le] using hd
          omega

/-- The name and a quote, at a place before a quote: either the quotes are one, or there is another one before it. -/
theorem eq_key_of_prefix (hquote : '"' ∉ key) {y z : List Char} (h : key ++ ['"'] <+: y ++ '"' :: z) :
    y = key ∨ ∃ y', y = key ++ '"' :: y' := by
  obtain ⟨x, hx⟩ := h
  rw [List.append_assoc, List.singleton_append] at hx
  rcases List.append_eq_append_iff.mp hx with ⟨y', rfl, hrest⟩ | ⟨key', hkey', hrest⟩
  · cases y' with
    | nil => exact .inl (List.append_nil key)
    | cons d y' =>
      obtain ⟨rfl, -⟩ := List.cons_eq_cons.mp hrest
      exact .inr ⟨y', rfl⟩
  · cases key' with
    | nil => exact .inl (hkey'.trans (List.append_nil y)).symm
    | cons d key' =>
      obtain ⟨rfl, -⟩ := List.cons_eq_cons.mp hrest
      exact absurd (hkey' ▸ List.mem_append_right y (.head key')) hquote

/-- A quote in a string does not come after a key. -/
theorem Spells.not_key_quote (hkey : isKey key = true) {a b : List Char} (h : Spells (a ++ key ++ '"' :: b) value) :
    False := by
  obtain ⟨-, hslash, c, rest, rfl, -⟩ := key_facts hkey
  obtain ⟨a', ha'⟩ := h.backslash
  have hlast : (c :: rest).getLast (List.cons_ne_nil c rest) = '\\' := by
    have := congrArg (fun l : List Char => l.getLast?) ha'
    rw [List.getLast?_append_of_ne_nil _ (List.cons_ne_nil c rest), List.getLast?_concat,
      List.getLast?_eq_some_getLast (List.cons_ne_nil c rest)] at this
    exact Option.some.inj this
  exact hslash (hlast ▸ List.getLast_mem _)

/-- From a place in a string on, there is nothing to find before its closing quote if it does not end in a quote and
the name. -/
theorem suffixesAt_inner (hkey : isKey key = true) (a b : List Char) (h : Spells (a ++ b) value)
    (hsuffix : ¬ '"' :: key <:+ a ++ b) (ts : List Token) :
    suffixesAt (needle key) (b ++ '"' :: text ts) = suffixesAt (needle key) (text ts) := by
  induction b generalizing a with
  | nil =>
    have hfront : (needle key).isPrefixOf ('"' :: text ts) = false := by
      rw [← Bool.not_eq_true, List.isPrefixOf_iff_prefix]
      exact fun h => not_prefix_text hkey ts (List.cons_prefix_cons.mp h).2
    rw [List.nil_append, suffixesAt, hfront]
    rfl
  | cons c b ih =>
    have happend : a ++ c :: b = a ++ [c] ++ b := by simp
    have hrest := ih (a ++ [c]) (happend ▸ h) (happend ▸ hsuffix)
    by_cases hc : c = '"'
    · obtain rfl := hc
      have hfront : (needle key).isPrefixOf ('"' :: (b ++ '"' :: text ts)) = false := by
        rw [← Bool.not_eq_true, List.isPrefixOf_iff_prefix]
        intro hneedle
        rcases eq_key_of_prefix (key_facts hkey).1 (List.cons_prefix_cons.mp hneedle).2 with rfl | ⟨b', rfl⟩
        · exact hsuffix (List.suffix_append a _)
        · rw [show a ++ '"' :: (key ++ '"' :: b') = a ++ ['"'] ++ key ++ '"' :: b' by simp] at h
          exact h.not_key_quote hkey
      rw [List.cons_append, suffixesAt, hfront]
      exact hrest
    · rw [List.cons_append, suffixesAt_cons_ne hc]
      exact hrest

/-- There is nothing to find in a string that is not found. -/
theorem suffixesAt_string (hkey : isKey key = true) (h : Spells raw value) (hraw : hits key raw = false)
    (ts : List Token) :
    suffixesAt (needle key) ('"' :: (raw ++ '"' :: text ts)) = suffixesAt (needle key) (text ts) := by
  obtain ⟨hne, hsuffix⟩ : raw ≠ key ∧ ¬ '"' :: key <:+ raw := by
    rw [hits, Bool.or_eq_false_iff, beq_eq_false_iff_ne, ← Bool.not_eq_true, List.isSuffixOf_iff_suffix] at hraw
    exact hraw
  have hfront : (needle key).isPrefixOf ('"' :: (raw ++ '"' :: text ts)) = false := by
    rw [← Bool.not_eq_true, List.isPrefixOf_iff_prefix]
    intro hneedle
    rcases eq_key_of_prefix (key_facts hkey).1 (List.cons_prefix_cons.mp hneedle).2 with heq | ⟨b', rfl⟩
    · exact hne heq
    · exact Spells.not_key_quote (a := []) hkey h
  rw [suffixesAt, hfront]
  exact suffixesAt_inner hkey [] raw h hsuffix ts

/-- What is found at a name. -/
theorem suffixesAt_key (hkey : isKey key = true) (h : Spells key value) (ts : List Token) :
    suffixesAt (needle key) ('"' :: (key ++ '"' :: text ts)) =
      ('"' :: (key ++ '"' :: text ts)) :: suffixesAt (needle key) (text ts) := by
  have hfront : (needle key).isPrefixOf ('"' :: (key ++ '"' :: text ts)) = true := by
    rw [List.isPrefixOf_iff_prefix]
    exact ⟨text ts, by simp [needle]⟩
  have hsuffix : ¬ '"' :: key <:+ key := fun h => absurd h.length_le (by simp)
  rw [suffixesAt, if_pos hfront, suffixesAt_inner hkey [] key h hsuffix ts]

theorem no_quote_literal (l : Literal) : '"' ∉ l.text := by
  cases l with
  | null => decide
  | true => decide
  | false => decide
  | number digits h =>
    obtain ⟨sign, whole, fraction, exponent, rfl, hsign, hwhole, hfraction, hexponent⟩ := h
    have hdigits : ∀ ds : List Char, (∀ c ∈ ds, c.isDigit = true) → '"' ∉ ds := fun ds hall hmem =>
      absurd (hall _ hmem) (by decide)
    simp only [Literal.text, List.mem_append, not_or]
    refine ⟨⟨⟨?_, ?_⟩, ?_⟩, ?_⟩
    · rcases hsign with rfl | rfl <;> decide
    · rcases hwhole with rfl | ⟨d, ds, rfl, -, hall⟩
      · decide
      · exact hdigits _ hall
    · rcases hfraction with rfl | ⟨ds, rfl, -, hall⟩
      · decide
      · simpa using hdigits ds hall
    · rcases hexponent with rfl | ⟨e, s, ds, rfl, he, hs, -, hall⟩
      · decide
      · simp only [List.cons_append, List.mem_cons, List.mem_append, not_or]
        refine ⟨?_, ?_, hdigits ds hall⟩
        · rcases he with rfl | rfl <;> decide
        · rcases hs with rfl | rfl | rfl <;> decide

/-- Where the tokens show a name, a search finds the names of the members that have it. -/
theorem suffixesAt_text (hkey : isKey key = true) (hshows : ∀ tok ∈ ts, tok.Shows key) :
    suffixesAt (needle key) (text ts) = (namedTails key ts).map fun p => needle key ++ text p.2 := by
  induction ts with
  | nil => rfl
  | cons tok ts ih =>
    have htail := ih fun tok h => hshows tok (.tail _ h)
    have htok := hshows tok (.head ts)
    cases tok with
    | mark m =>
      rw [text_cons, suffixesAt_append (by cases m <;> decide)]
      exact htail
    | blank b =>
      rw [text_cons, suffixesAt_append (by cases b <;> decide)]
      exact htail
    | literal l =>
      rw [text_cons, Token.text, suffixesAt_append (no_quote_literal l)]
      exact htail
    | string s =>
      rw [text_string, suffixesAt_string hkey s.spells htok]
      exact htail
    | name m =>
      rw [text_name, namedTails]
      by_cases hname : m.name.value = key
      · have hraw : m.name.raw = key := htok (.inr hname)
        rw [if_pos hname, List.map_cons, ← htail, hraw, suffixesAt_key hkey (hraw ▸ m.name.spells)]
        simp [needle]
      · have hraw : hits key m.name.raw = false := by
          rw [← Bool.not_eq_true]
          intro hhits
          have heq := htok (.inl hhits)
          exact hname ((m.name.spells.eq_of_no_backslash (heq ▸ (key_facts hkey).2.1)).symm.trans heq)
        rw [if_neg hname, suffixesAt_string hkey m.name.spells hraw, htail]

end Search

/-! ## Members in the order in which they are written -/

/-- The members that tokens name. -/
def members (ts : List Token) : List Member := ts.filterMap Token.member?

/-- The members with a name, each with the members that are written behind its name. -/
def membersFrom (key : List Char) : List Member → List (Member × List Member)
  | [] => []
  | m :: ms => if m.name.value = key then (m, ms) :: membersFrom key ms else membersFrom key ms

section Places

variable {key : List Char} {ts : List Token} {m : Member} {post : List Token}

theorem members_strip (ts : List Token) : members (strip ts) = members ts := by
  induction ts with
  | nil => rfl
  | cons tok ts ih =>
    cases tok with
    | blank => exact ih
    | mark | literal | string => exact ih
    | name m => exact congrArg (m :: ·) ih

theorem membersFrom_members (key : List Char) (ts : List Token) :
    membersFrom key (members ts) = (namedTails key ts).map fun p => (p.1, members p.2) := by
  induction ts with
  | nil => rfl
  | cons tok ts ih =>
    cases tok with
    | blank | mark | literal | string => exact ih
    | name m =>
      change membersFrom key (m :: members ts) = _
      rw [membersFrom, namedTails]
      split
      · exact congrArg ((m, members ts) :: ·) ih
      · exact ih

theorem find_members (key : List Char) (ts : List Token) :
    (members ts).find? (·.name.value = key) = (namedTails key ts).head?.map Prod.fst := by
  induction ts with
  | nil => rfl
  | cons tok ts ih =>
    cases tok with
    | blank | mark | literal | string => exact ih
    | name m =>
      change (m :: members ts).find? _ = _
      rw [namedTails]
      by_cases hname : m.name.value = key
      · rw [List.find?_cons_of_pos (by simpa using hname), if_pos hname]
        rfl
      · rw [List.find?_cons_of_neg (by simpa using hname), if_neg hname]
        exact ih

theorem suffix_of_mem_namedTails (h : (m, post) ∈ namedTails key ts) : .name m :: post <:+ ts ∧ m.name.value = key := by
  induction ts with
  | nil => cases h
  | cons tok ts ih =>
    have hlater (h : (m, post) ∈ namedTails key ts) : .name m :: post <:+ tok :: ts ∧ m.name.value = key :=
      ⟨(ih h).1.trans (List.suffix_cons tok ts), (ih h).2⟩
    cases tok with
    | blank | mark | literal | string => exact hlater h
    | name m' =>
      rw [namedTails] at h
      split at h
      · rename_i hname
        rcases List.mem_cons.mp h with heq | h
        · obtain ⟨rfl, rfl⟩ := Prod.mk.inj heq
          exact ⟨List.suffix_rfl, hname⟩
        · exact hlater h
      · exact hlater h

/-- Behind every name are a colon, the value and a mark. -/
def Keyed (ts : List Token) : Prop := ∀ (m : Member) (post : List Token), .name m :: post <:+ ts →
  ∃ mark rest, strip post = .mark .colon :: (m.value.tokens m.object ++ .mark mark :: rest)

theorem Keyed.of_suffix {ts' : List Token} (h : Keyed ts) (hsuffix : ts' <:+ ts) : Keyed ts' :=
  fun m post hm => h m post (hm.trans hsuffix)

theorem keyed_nil : Keyed [] := fun _ _ h => absurd (List.suffix_nil.mp h) (by simp)

/-- A token that is no name. -/
theorem keyed_cons {tok : Token} (h : Keyed ts) (htok : tok.member? = none) : Keyed (tok :: ts) := by
  intro m post hm
  rcases List.suffix_cons_iff.mp hm with heq | hm
  · obtain ⟨rfl, -⟩ := List.cons_eq_cons.mp heq
    cases htok
  · exact h m post hm

/-- White space makes no difference. -/
theorem Keyed.of_strip (h : Keyed (strip ts)) : Keyed ts := by
  intro m post hm
  have hstrip : .name m :: strip post <:+ strip ts := hm.filter Token.counts
  have hidem : strip (strip post) = strip post := List.filter_filter .. |>.trans (by simp [strip])
  rw [← hidem]
  exact h m (strip post) hstrip

/-- Members are followed by a mark. -/
def Node.Closed : Kind → List Token → Prop
  | .members, ts => ∃ mark rest, ts = .mark mark :: rest
  | _, _ => True

theorem Node.keyed_tokens {k : Kind} (n : Node k) (obj : Members) (ts : List Token) (hts : Keyed ts)
    (hclosed : Node.Closed k ts) : Keyed (n.tokens obj ++ ts) := by
  induction n generalizing obj ts with
  | string s => exact keyed_cons hts rfl
  | literal l => exact keyed_cons hts rfl
  | array items ih =>
    rw [Node.tokens, List.cons_append, List.append_assoc]
    exact keyed_cons (ih obj _ (keyed_cons hts rfl) trivial) rfl
  | object members ih =>
    rw [Node.tokens, List.cons_append, List.append_assoc]
    exact keyed_cons (ih members _ (keyed_cons hts rfl) ⟨_, _, rfl⟩) rfl
  | noItem => exact hts
  | item v rest ihv ih =>
    rw [Node.tokens, List.append_assoc, List.append_assoc]
    refine ihv obj _ ?_ trivial
    cases rest with
    | noItem => exact hts
    | item => exact keyed_cons (ih obj ts hts trivial) rfl
  | noMember => exact hts
  | member name v rest ihv ih =>
    rw [Node.tokens, List.cons_append, List.cons_append, List.append_assoc, List.append_assoc]
    have hrest : Keyed (rest.separator ++ (rest.tokens obj ++ ts)) := by
      cases rest with
      | noMember => exact hts
      | member => exact keyed_cons (ih obj ts hts hclosed) rfl
    have hmark : ∃ mark rest', rest.separator ++ (rest.tokens obj ++ ts) = .mark mark :: rest' := by
      cases rest with
      | noMember => exact hclosed
      | member => exact ⟨_, _, rfl⟩
    have hbehind : Keyed (.mark .colon :: (v.tokens obj ++ (rest.separator ++ (rest.tokens obj ++ ts)))) :=
      keyed_cons (ihv obj _ hrest trivial) rfl
    intro m post hm
    rcases List.suffix_cons_iff.mp hm with heq | hm
    · obtain ⟨hname, rfl⟩ := List.cons_eq_cons.mp heq
      obtain rfl := Token.name.inj hname
      obtain ⟨mark, rest', heq⟩ := hmark
      have hvalue : strip (v.tokens obj ++ .mark mark :: rest') = v.tokens obj ++ .mark mark :: strip rest' := by
        rw [strip, List.filter_append, ← strip, v.strip_tokens]
        rfl
      refine ⟨mark, strip rest', ?_⟩
      rw [heq]
      exact congrArg (.mark .colon :: ·) hvalue
    · exact hbehind m post hm

theorem Node.keyed_document (v : Value) : Keyed v.document := by
  have h := v.keyed_tokens .noMember [] keyed_nil trivial
  rwa [List.append_nil] at h

end Places

end TurbineProxy.Json
