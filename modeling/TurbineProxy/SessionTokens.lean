import TurbineProxy.DashboardAuth
import TurbineProxy.Threads
import TurbineProxy.Utf8

/-!
# What a dashboard token is good for

`Safe` is the property of a history: whoever was let in as an administrator holds a token of a chain that
began with the credentials of the administrator, and no one was let in with a token that had been
refreshed or given back, or after its expiry. `tokens_safe` proves it of every run: what is in the table
is true of the token it is kept for (`Backed`).
-/

namespace TurbineProxy

/-! ## Histories -/

/-- A token was issued. -/
def issued (t : Str) : List AuthMark → Bool
  | [] => false
  | .loggedIn token _ _ :: older => token == t || issued t older
  | .refreshed _ new _ :: older => new == t || issued t older
  | _ :: older => issued t older

/-- The login that the chain of a token began with. -/
def chainStart : Str → List AuthMark → Option LoginRequest
  | _, [] => none
  | t, .loggedIn token req _ :: older => if token = t then some req else chainStart t older
  | t, .refreshed old new _ :: older => if new = t then chainStart old older else chainStart t older
  | t, _ :: older => chainStart t older

/-- The expiry of a token. -/
def expiryOf (t : Str) : List AuthMark → Option Nat
  | [] => none
  | .loggedIn token _ expiresAt :: older => if token = t then expiresAt else expiryOf t older
  | .refreshed _ new expiresAt :: older => if new = t then expiresAt else expiryOf t older
  | _ :: older => expiryOf t older

/-- A token was refreshed, or given back after it was issued. -/
def revoked (t : Str) : List AuthMark → Bool
  | [] => false
  | .refreshed old _ _ :: older => old == t || revoked t older
  | .loggedOut token :: older => (token == t && issued t older) || revoked t older
  | _ :: older => revoked t older

/-- The credentials of the administrator. -/
def LoginRequest.isAdmin (cfg : DashboardConfig) (req : LoginRequest) : Prop :=
  req.username = cfg.username ∧ req.password = cfg.password

/-- Whoever was let in had a token that was good for it. -/
def Safe (cfg : DashboardConfig) : List AuthMark → Prop
  | [] => True
  | .admitted token asAdmin now :: older =>
    ((asAdmin = true → ∃ req, chainStart token older = some req ∧ req.isAdmin cfg) ∧
      revoked token older = false ∧ (∀ exp, expiryOf token older = some exp → now < exp)) ∧ Safe cfg older
  | _ :: older => Safe cfg older

/-- The identifiers that are made for new tokens have not been issued before. -/
def AuthWorld.Fresh (w : AuthWorld) : AuthEvent → Prop
  | .checkCredentials _ _ token => issued token w.log = false
  | .refresh _ new _ _ => issued new w.log = false
  | _ => True

instance (w : AuthWorld) : (e : AuthEvent) → Decidable (w.Fresh e)
  | .checkCredentials _ _ token => inferInstanceAs (Decidable (issued token w.log = false))
  | .refresh _ new _ _ => inferInstanceAs (Decidable (issued new w.log = false))
  | .checkAttempts .. | .request .. | .logout _ | .sweep _ => .isTrue trivial

/-! ## The hash -/

section Hash

variable {digest : Bytes → Bytes} (hdigest : Function.Injective digest)

/-- Two hexadecimal digits tell a byte. -/
theorem hexByte_inj {a b : UInt8} (h : hexByte a = hexByte b) : a = b := by
  have hdigit : ∀ i j : Fin 16, Nat.digitChar i = Nat.digitChar j → i = j := by decide
  have ha := a.toNat_lt
  have hb := b.toNat_lt
  obtain ⟨hhigh, hlow⟩ := List.cons.inj h
  have h₁ := congrArg Fin.val (hdigit ⟨a.toNat / 16, by omega⟩ ⟨b.toNat / 16, by omega⟩ hhigh)
  have h₂ := congrArg Fin.val (hdigit ⟨a.toNat % 16, by omega⟩ ⟨b.toNat % 16, by omega⟩
    (List.cons.inj hlow).1)
  dsimp only at h₁ h₂
  exact UInt8.toNat_inj.mp (by omega)

theorem flatMap_hexByte_inj {s t : Bytes} (h : s.flatMap hexByte = t.flatMap hexByte) : s = t := by
  induction s generalizing t with
  | nil =>
    cases t with
    | nil => rfl
    | cons b t => cases h
  | cons a s ih =>
    cases t with
    | nil => cases h
    | cons b t =>
      have hsplit : hexByte a ++ s.flatMap hexByte = hexByte b ++ t.flatMap hexByte := h
      obtain ⟨hhead, htail⟩ := List.append_inj hsplit rfl
      rw [hexByte_inj hhead, ih htail]

theorem toUtf8_injective : Function.Injective toUtf8 := by
  intro s t h
  have hs := fromUtf8_toUtf8 s
  rw [h, fromUtf8_toUtf8] at hs
  exact (Option.some.inj hs).symm

include hdigest in
theorem tokenHash_injective : Function.Injective (tokenHash digest) :=
  fun _ _ h => toUtf8_injective (hdigest (flatMap_hexByte_inj h))

include hdigest in
theorem ctEqStr_iff {a b : Str} : ctEqStr digest a b = true ↔ a = b :=
  beq_iff_eq.trans ⟨fun h => toUtf8_injective (hdigest h), fun h => h ▸ rfl⟩

end Hash

/-! ## The table -/

/-- What the table keeps for a token is true of it. -/
structure Backed (digest : Bytes → Bytes) (cfg : DashboardConfig) (w : AuthWorld) : Prop where
  /-- who was let in -/
  safe : Safe cfg w.log
  /-- only issued tokens are in the table -/
  known : ∀ t entry, w.tokens (tokenHash digest t) = some entry → issued t w.log = true
  /-- the role -/
  role : ∀ t entry, w.tokens (tokenHash digest t) = some entry → entry.role = .admin →
    ∃ req, chainStart t w.log = some req ∧ req.isAdmin cfg
  /-- the expiry -/
  expiry : ∀ t entry, w.tokens (tokenHash digest t) = some entry → expiryOf t w.log = entry.expiresAt
  /-- what is revoked is not in the table -/
  live : ∀ t entry, w.tokens (tokenHash digest t) = some entry → revoked t w.log = false
  /-- what is revoked was issued -/
  was : ∀ t, revoked t w.log = true → issued t w.log = true

section Table

variable {digest : Bytes → Bytes} {cfg : DashboardConfig} {w w' : AuthWorld}

/-- Entries may go, as long as nothing else happens. -/
theorem Backed.shrink (h : Backed digest cfg w) (hlog : w'.log = w.log)
    (htokens : ∀ hash entry, w'.tokens hash = some entry → w.tokens hash = some entry) :
    Backed digest cfg w' := by
  refine ⟨hlog ▸ h.safe, ?_, ?_, ?_, ?_, hlog ▸ h.was⟩ <;> intro t entry hentry <;> rw [hlog]
  · exact h.known t entry (htokens _ _ hentry)
  · exact h.role t entry (htokens _ _ hentry)
  · exact h.expiry t entry (htokens _ _ hentry)
  · exact h.live t entry (htokens _ _ hentry)

/-- A token that is taken out of the table. -/
theorem erased {hash hash' : Str} {entry : TokenEntry}
    (h : Function.update w.tokens hash none hash' = some entry) : hash' ≠ hash ∧ w.tokens hash' = some entry := by
  rw [Function.update_apply] at h
  exact Option.ite_none_left_eq_some.mp h

/-- A new entry has the role it is made for. -/
theorem role_of_makeEntry {role : TokenRole} {now : Nat} {entry : TokenEntry}
    (h : makeEntry cfg role now = some entry) : entry.role = role := by
  rw [makeEntry] at h
  split at h
  · obtain ⟨exp, -, rfl⟩ := Option.map_eq_some_iff.mp h
    rfl
  · exact Option.some.inj h ▸ rfl

variable (hdigest : Function.Injective digest)

include hdigest in
/-- A token that is put into the table, and the others. -/
theorem entered {tokens : Str → Option TokenEntry} {token t : Str} {entry e : TokenEntry}
    (h : Function.update tokens (tokenHash digest token) (some entry) (tokenHash digest t) = some e) :
    (token = t ∧ entry = e) ∨ (token ≠ t ∧ tokens (tokenHash digest t) = some e) := by
  rw [Function.update_apply] at h
  split at h
  · rename_i heq
    exact .inl ⟨(tokenHash_injective hdigest heq).symm, Option.some.inj h⟩
  · rename_i hne
    exact .inr ⟨fun heq => hne (heq ▸ rfl), h⟩

include hdigest in
/-- A new token of a login. -/
theorem Backed.issue (h : Backed digest cfg w) {req : LoginRequest} {token : Str} {role : TokenRole} {now : Nat}
    (hfresh : issued token w.log = false) (hrole : role = .admin → req.isAdmin cfg) :
    Backed digest cfg (w.issue digest cfg req token role now) := by
  rw [AuthWorld.issue]
  rcases hmake : makeEntry cfg role now with _ | entry
  · exact h
  have hentry := role_of_makeEntry hmake
  dsimp only
  -- the new token, or an older one
  have hcases : ∀ t e, Function.update w.tokens (tokenHash digest token) (some entry) (tokenHash digest t) =
      some e → (token = t ∧ entry = e) ∨ (token ≠ t ∧ w.tokens (tokenHash digest t) = some e) :=
    fun t e he => entered hdigest he
  refine ⟨h.safe, ?_, ?_, ?_, ?_, ?_⟩
  · intro t e he
    rcases hcases t e he with ⟨rfl, -⟩ | ⟨-, hold⟩
    · simp [issued]
    · simp [issued, h.known t e hold]
  · intro t e he hadmin
    rcases hcases t e he with ⟨rfl, rfl⟩ | ⟨hne, hold⟩
    · exact ⟨req, if_pos rfl, hrole (hentry ▸ hadmin)⟩
    · obtain ⟨start, hstart, hcred⟩ := h.role t e hold hadmin
      exact ⟨start, (if_neg hne).trans hstart, hcred⟩
  · intro t e he
    rcases hcases t e he with ⟨rfl, rfl⟩ | ⟨hne, hold⟩
    · exact if_pos rfl
    · exact (if_neg hne).trans (h.expiry t e hold)
  · intro t e he
    change revoked t w.log = false
    rcases hcases t e he with ⟨rfl, -⟩ | ⟨-, hold⟩
    · refine eq_false_of_ne_true fun hrevoked => ?_
      rw [h.was token hrevoked] at hfresh
      cases hfresh
    · exact h.live t e hold
  · intro t ht
    simp [issued, h.was t ht]

include hdigest in
/-- A refresh, which takes the old token out of the table and enters the new one, keeps the table backed. -/
theorem Backed.refresh (h : Backed digest cfg w) {old new : Str} {now later : Nat}
    (hfresh : issued new w.log = false) : Backed digest cfg (w.refreshToken digest cfg old new now later) := by
  rw [AuthWorld.refreshToken]
  rcases hold : w.tokens (tokenHash digest old) with _ | entry
  · exact h
  have herased : Backed digest cfg { w with tokens := Function.update w.tokens (tokenHash digest old) none } :=
    h.shrink rfl fun _ _ he => (erased he).2
  dsimp only
  split
  · exact herased
  rcases hmake : makeEntry cfg entry.role later with _ | fresh
  · exact herased
  have hrole := role_of_makeEntry hmake
  have hne : old ≠ new := by
    rintro rfl
    rw [h.known old entry hold] at hfresh
    cases hfresh
  -- the new token, or an older one that is not the refreshed one
  have hcases : ∀ t e, Function.update (Function.update w.tokens (tokenHash digest old) none)
      (tokenHash digest new) (some fresh) (tokenHash digest t) = some e →
      (new = t ∧ fresh = e) ∨ (new ≠ t ∧ old ≠ t ∧ w.tokens (tokenHash digest t) = some e) := by
    intro t e he
    rcases entered hdigest he with hnew | ⟨hnew, he⟩
    · exact .inl hnew
    · obtain ⟨hold', he⟩ := erased he
      exact .inr ⟨hnew, fun heq => hold' (heq ▸ rfl), he⟩
  refine ⟨h.safe, ?_, ?_, ?_, ?_, ?_⟩
  · intro t e he
    rcases hcases t e he with ⟨rfl, -⟩ | ⟨-, -, hkept⟩
    · simp [issued]
    · simp [issued, h.known t e hkept]
  · intro t e he hadmin
    rcases hcases t e he with ⟨rfl, rfl⟩ | ⟨hnew, -, hkept⟩
    · obtain ⟨start, hstart, hcred⟩ := h.role old entry hold (hrole ▸ hadmin)
      exact ⟨start, (if_pos rfl).trans hstart, hcred⟩
    · obtain ⟨start, hstart, hcred⟩ := h.role t e hkept hadmin
      exact ⟨start, (if_neg hnew).trans hstart, hcred⟩
  · intro t e he
    rcases hcases t e he with ⟨rfl, rfl⟩ | ⟨hnew, -, hkept⟩
    · exact if_pos rfl
    · exact (if_neg hnew).trans (h.expiry t e hkept)
  · intro t e he
    rcases hcases t e he with ⟨rfl, -⟩ | ⟨-, hold', hkept⟩
    · have hlive : revoked new w.log = false := by
        refine eq_false_of_ne_true fun hrevoked => ?_
        rw [h.was new hrevoked] at hfresh
        cases hfresh
      simp [revoked, hne, hlive]
    · simp [revoked, hold', h.live t e hkept]
  · intro t ht
    simp only [revoked, Bool.or_eq_true, beq_iff_eq] at ht
    rcases ht with rfl | ht
    · simp [issued, h.known old entry hold]
    · simp [issued, h.was t ht]

/-- A token that is given back. -/
theorem Backed.logout (h : Backed digest cfg w) (token : Str) : Backed digest cfg (w.logout digest token) := by
  refine ⟨h.safe, fun t e he => h.known t e (erased he).2, fun t e he => h.role t e (erased he).2,
    fun t e he => h.expiry t e (erased he).2, fun t e he => ?_, fun t ht => ?_⟩
  · obtain ⟨hne, hkept⟩ := erased he
    have hother : token ≠ t := fun heq => hne (heq ▸ rfl)
    simp [AuthWorld.logout, revoked, hother, h.live t e hkept]
  · simp only [AuthWorld.logout, revoked, Bool.or_eq_true, Bool.and_eq_true] at ht
    exact ht.elim (·.2) (h.was t)

/-- A request: the middleware looks at the entry of its token. -/
theorem Backed.request (henabled : cfg.authEnabled = true) (h : Backed digest cfg w) (method : HttpMethod)
    (path token : Str) (now : Nat) : Backed digest cfg (w.request digest cfg method path token now) := by
  rw [AuthWorld.request]
  split
  · rename_i hpassed
    refine ⟨⟨?_, h.safe⟩, h.known, h.role, h.expiry, h.live, h.was⟩
    rw [AuthWorld.authMiddleware] at hpassed
    rw [henabled] at hpassed
    rcases hentry : w.tokens (tokenHash digest token) with _ | entry
    · rw [hentry] at hpassed
      cases hpassed
    rw [hentry] at hpassed
    simp only [Bool.not_true, Bool.false_eq_true, if_false, Option.bind_some] at hpassed
    cases hexpired : entry.expiresAt.any (· ≤ now) with
    | true =>
      rw [hexpired, if_pos rfl] at hpassed
      cases hpassed
    | false =>
      rw [hexpired, if_neg Bool.false_ne_true] at hpassed
      refine ⟨fun hadmin => ?_, h.live token entry hentry, fun exp hexp => ?_⟩
      · refine h.role token entry hentry ?_
        cases hrole : entry.role with
        | admin => rfl
        | readOnly =>
          rw [hrole, hadmin] at hpassed
          cases hpassed
      · rw [(h.expiry token entry hentry).symm.trans hexp] at hexpired
        exact Nat.lt_of_not_le (of_decide_eq_false hexpired)
  · exact h

include hdigest in
/-- Only the credentials of the administrator make one. -/
theorem isAdmin_of_roleOf {req : LoginRequest} (h : roleOf digest cfg req = some .admin) : req.isAdmin cfg := by
  unfold roleOf at h
  dsimp only at h
  split at h
  · rename_i hadmin
    obtain ⟨huser, hpass⟩ := Bool.and_eq_true_iff.mp hadmin
    exact ⟨(ctEqStr_iff hdigest).mp huser, (ctEqStr_iff hdigest).mp hpass⟩
  · split at h <;> cases h

include hdigest in
/-- Every event keeps the table true. -/
theorem Backed.step (henabled : cfg.authEnabled = true) (h : Backed digest cfg w) {e : AuthEvent}
    (hfresh : w.Fresh e) (hstep : w.step digest cfg e = some w') : Backed digest cfg w' := by
  cases e with
  | checkAttempts req now =>
    obtain rfl := Option.some.inj hstep
    rw [AuthWorld.checkAttempts]
    split <;> exact h.shrink rfl fun _ _ he => he
  | checkCredentials req now token =>
    obtain ⟨-, hstep⟩ := Option.ite_none_right_eq_some.mp hstep
    obtain rfl := Option.some.inj hstep
    have hpending : Backed digest cfg { w with pending := w.pending.erase req } := h.shrink rfl fun _ _ he => he
    rw [AuthWorld.checkCredentials]
    simp only [henabled, Bool.not_true, Bool.false_eq_true, if_false]
    rcases hrole : roleOf digest cfg req with _ | role
    · exact ⟨h.safe, h.known, h.role, h.expiry, h.live, h.was⟩
    · exact hpending.issue hdigest hfresh fun hadmin => isAdmin_of_roleOf hdigest (hadmin ▸ hrole)
  | request method path token now =>
    obtain rfl := Option.some.inj hstep
    exact h.request henabled method path token now
  | logout token =>
    obtain rfl := Option.some.inj hstep
    exact h.logout token
  | refresh old new now later =>
    obtain rfl := Option.some.inj hstep
    exact h.refresh hdigest hfresh
  | sweep now =>
    obtain rfl := Option.some.inj hstep
    exact h.shrink rfl fun _ _ he => (Option.filter_eq_some_iff.mp he).1

/-- **Dashboard tokens**: whatever happens in whatever order, no one is let in with a token that is not
good for it. -/
theorem tokens_safe (hdigest : Function.Injective digest) (henabled : cfg.authEnabled = true)
    {events : List AuthEvent} (h : Steps (AuthWorld.step digest cfg) AuthWorld.Fresh .start events w) :
    Safe cfg w.log := by
  have hstart : Backed digest cfg .start :=
    ⟨trivial, (fun _ _ he => nomatch he), (fun _ _ he => nomatch he), (fun _ _ he => nomatch he),
      (fun _ _ he => nomatch he), (fun _ ht => nomatch ht)⟩
  exact (h.induct (fun _ _ _ hw hfresh hstep => hw.step hdigest henabled hfresh hstep) hstart).safe

end Table

/-! ## A run -/

/-- Thirty-two bytes. -/
def wordBytes (n : Nat) : Bytes := (List.range 32).map fun i => UInt8.ofNat (n >>> (8 * (31 - i)))

/-- SHA-256 of the texts that occur below. -/
def sampleDigests : List (Bytes × Bytes) :=
  [(asciiBytes "admin",
    wordBytes 0x8c6976e5b5410415bde908bd4dee15dfb167a9c873fc4bb8a81f6f2ab448a918),
   (asciiBytes "secret",
    wordBytes 0x2bb80d537b1da3e38bd30361aa855686bde0eacd7162fef6a25fe97bf527a25b),
   (asciiBytes "viewer",
    wordBytes 0xd35ca5051b82ffc326a3b0b6574a9a3161dee16b9478a199ee39cd803ce5b799),
   (asciiBytes "viewer-pass",
    wordBytes 0xce75404ed6b49f01bf01dda0eaf873d5220ef66dfd153f0ccbda085b152a30e0),
   (asciiBytes "3f2b8c1e-5a77-4d09-9c41-7e0d6a2b5f10",
    wordBytes 0xce57e67c519a17c61c4de147f917177377fb752189d7eadfdc71ebc00f5a47fb),
   (asciiBytes "a81d44f6-02c9-4b3e-8f65-19c07be3d2aa",
    wordBytes 0x2a57abaa5b04944e1bfeb4b711485706fd4bbfba0fcbe967e1b57e5fd609b6a3),
   (asciiBytes "c07e95b2-6d14-4f8a-b3d9-50a1f2864e7c",
    wordBytes 0x184b54f66caa9d0f3a9b47044bd641344e896e86b7d5f64fb0fe14589f3392e6)]

/-- SHA-256 there, and something that tells all other texts apart. -/
def sampleDigest (bytes : Bytes) : Bytes := (sampleDigests.lookup bytes).getD (0 :: bytes)

theorem sampleDigest_injective : Function.Injective sampleDigest := by
  have hinj : sampleDigests.all (fun p => sampleDigests.all fun q => p.2 != q.2 || p.1 == q.1) = true := by
    decide +kernel
  have hhead : sampleDigests.all (fun p => p.2.head? != some 0) = true := by decide +kernel
  have hother : ∀ {b d : Bytes} (b' : Bytes), sampleDigests.lookup b = some d → d ≠ 0 :: b' := by
    rintro b d b' h rfl
    exact absurd (List.all_eq_true.mp hhead _ (mem_of_lookup h)) (by simp)
  intro a b h
  unfold sampleDigest at h
  rcases ha : sampleDigests.lookup a with _ | d <;> rcases hb : sampleDigests.lookup b with _ | d' <;>
    rw [ha, hb] at h
  · exact (List.cons.inj h).2
  · exact absurd h.symm (hother a hb)
  · exact absurd h (hother b ha)
  · have hpair := List.all_eq_true.mp (List.all_eq_true.mp hinj _ (mem_of_lookup ha)) _ (mem_of_lookup hb)
    obtain rfl : d = d' := h
    simpa using hpair

/-- An administrator and a viewer; tokens live for an hour. -/
def twoRoles : DashboardConfig :=
  ⟨"admin".toList, "secret".toList, "viewer".toList, "viewer-pass".toList, 3600, 5⟩

/-- The tokens of the viewer. -/
def viewerToken : Str := "3f2b8c1e-5a77-4d09-9c41-7e0d6a2b5f10".toList

def viewerToken' : Str := "a81d44f6-02c9-4b3e-8f65-19c07be3d2aa".toList

def viewerToken'' : Str := "c07e95b2-6d14-4f8a-b3d9-50a1f2864e7c".toList

/-- The viewer logs in, reads, tries to write, and has the token refreshed; the old one does not work any more, and the new
one works until it is given back at the logout. The token of a second login works for an hour. -/
def viewerDay : List AuthEvent :=
  let viewer : LoginRequest := ⟨"10.0.0.7".toList, "viewer".toList, "viewer-pass".toList⟩
  [.checkAttempts viewer 0, .checkCredentials viewer 1 viewerToken,
    .request .get "/api/stats".toList viewerToken 2, .request .other "/api/reload".toList viewerToken 3,
    .refresh viewerToken viewerToken' 4 5, .request .get "/api/stats".toList viewerToken 6,
    .request .get "/api/stats".toList viewerToken' 7, .logout viewerToken',
    .request .get "/api/stats".toList viewerToken' 8,
    .checkAttempts viewer 9, .checkCredentials viewer 9 viewerToken'',
    .request .get "/api/stats".toList viewerToken'' 10,
    .request .get "/api/stats".toList viewerToken'' (9 + 60 * minute), .sweep (9 + 60 * minute)]

/-- What comes of it, the latest first. -/
def viewerLog : List AuthMark :=
  let viewer : LoginRequest := ⟨"10.0.0.7".toList, "viewer".toList, "viewer-pass".toList⟩
  [.admitted viewerToken'' false 10, .loggedIn viewerToken'' viewer (some (9 + 60 * minute)), .loggedOut viewerToken',
    .admitted viewerToken' false 7, .refreshed viewerToken viewerToken' (some (5 + 60 * minute)),
    .admitted viewerToken false 2, .loggedIn viewerToken viewer (some (1 + 60 * minute))]

theorem tokens_safe_viewer : ∃ w, run (AuthWorld.step sampleDigest twoRoles) .start viewerDay = some w ∧
    w.log = viewerLog ∧ Safe twoRoles w.log := by
  have hrun : (run (fun w e => if decide (AuthWorld.Fresh w e) then AuthWorld.step sampleDigest twoRoles w e
      else none) .start viewerDay).map (·.log) = some viewerLog := by
    decide +kernel
  obtain ⟨w, hw, hlog⟩ := Option.map_eq_some_iff.mp hrun
  have hsteps := steps_of_checked (fun _ _ h => of_decide_eq_true h) hw
  exact ⟨w, hsteps.run, hlog, tokens_safe sampleDigest_injective rfl hsteps⟩

end TurbineProxy
