import Mathlib.Logic.Function.Basic

/-!
# Claims on a finite set of resources

A library layer, independent of the proxy. A process owns the resources `g : Key → Option Val` and
reaches them through a fixed set of variables (`Slot`). A `Claim` says which resource is in a variable
and what is known about it; `Owns σ g` says that the variables `σ` hold every resource of `g` exactly
once and that everything claimed is true. The rules are those of ownership: take, change, release,
move, forget.
-/

namespace TurbineProxy

variable {Key Val Slot : Type}

/-- What a variable holds, and what is known about it. -/
structure Claim (Key Val : Type) where
  /-- the resource -/
  key : Key
  /-- what is known about its value -/
  known : Val → Prop

/-- The variables `σ` hold the resources `g`, each of them in one variable. -/
structure Owns (σ : Slot → Option (Claim Key Val)) (g : Key → Option Val) : Prop where
  /-- every resource is in a variable -/
  all : ∀ k x, g k = some x → ∃ v a, σ v = some a ∧ a.key = k
  /-- every claim is true -/
  held : ∀ v a, σ v = some a → ∃ x, g a.key = some x ∧ a.known x
  /-- no resource is in two variables -/
  apart : ∀ v w a b, σ v = some a → σ w = some b → a.key = b.key → v = w

namespace Owns

variable {σ : Slot → Option (Claim Key Val)} {g : Key → Option Val} {v w : Slot}
  {a : Claim Key Val} {k : Key} {x : Val} {P : Val → Prop}

/-- Without resources there is nothing to claim. -/
theorem nil : Owns (fun _ : Slot => (none : Option (Claim Key Val))) (fun _ => none) := by
  constructor
  · intro k x h
    cases h
  · intro v a h
    cases h
  · intro v w a b h
    cases h

/-- A resource other than the one in `v` is in another variable. -/
theorem other (h : Owns σ g) (hv : σ v = some a) (hk : k ≠ a.key) (hx : g k = some x) :
    ∃ w b, w ≠ v ∧ σ w = some b ∧ b.key = k ∧ b.known x := by
  obtain ⟨w, b, hw, rfl⟩ := h.all k x hx
  obtain ⟨y, hy, hknown⟩ := h.held w b hw
  obtain rfl : y = x := Option.some.inj (hy.symm.trans hx)
  refine ⟨w, b, ?_, hw, rfl, hknown⟩
  rintro rfl
  rw [hv] at hw
  exact hk (congrArg Claim.key (Option.some.inj hw).symm)

/-- A claim may be weakened: less is known of the resource that is owned. -/
theorem mono {σ' : Slot → Option (Claim Key Val)} (h : Owns σ g)
    (hnone : ∀ v, σ v = none → σ' v = none)
    (hsome : ∀ v a, σ v = some a → ∃ P, σ' v = some ⟨a.key, P⟩ ∧ ∀ x, a.known x → P x) :
    Owns σ' g := by
  have hback : ∀ v b, σ' v = some b → ∃ a, σ v = some a ∧ b.key = a.key ∧
      ∀ x, a.known x → b.known x := by
    intro v b hb
    rcases hv : σ v with _ | a
    · rw [hnone v hv] at hb
      cases hb
    · obtain ⟨P, hP, himp⟩ := hsome v a hv
      rw [hP] at hb
      obtain rfl := Option.some.inj hb
      exact ⟨a, rfl, rfl, himp⟩
  refine ⟨fun k y hy => ?_, fun v b hb => ?_, fun v w b c hb hc heq => ?_⟩
  · obtain ⟨v, a, hv, rfl⟩ := h.all k y hy
    obtain ⟨P, hP, -⟩ := hsome v a hv
    exact ⟨v, ⟨a.key, P⟩, hP, rfl⟩
  · obtain ⟨a, ha, hkey, himp⟩ := hback v b hb
    obtain ⟨y, hy, hknown⟩ := h.held v a ha
    rw [hkey]
    exact ⟨y, hy, himp y hknown⟩
  · obtain ⟨a, ha, hkey, -⟩ := hback v b hb
    obtain ⟨a', ha', hkey', -⟩ := hback w c hc
    exact h.apart v w a a' ha ha' (hkey.symm.trans (heq.trans hkey'))

/-- What holds of every resource is known of each. -/
theorem know (h : Owns σ g) (hP : ∀ k x, g k = some x → P x) :
    Owns (fun v => (σ v).map fun a => ⟨a.key, fun x => a.known x ∧ P x⟩) g := by
  refine ⟨fun k x hx => ?_, fun v b hb => ?_, fun v w b c hb hc heq => ?_⟩
  · obtain ⟨v, a, hv, rfl⟩ := h.all k x hx
    exact ⟨v, ⟨a.key, fun x => a.known x ∧ P x⟩, by rw [hv]; rfl, rfl⟩
  · obtain ⟨a, ha, rfl⟩ := Option.map_eq_some_iff.mp hb
    obtain ⟨x, hx, hknown⟩ := h.held v a ha
    exact ⟨x, hx, hknown, hP _ x hx⟩
  · obtain ⟨a, ha, rfl⟩ := Option.map_eq_some_iff.mp hb
    obtain ⟨a', ha', rfl⟩ := Option.map_eq_some_iff.mp hc
    exact h.apart v w a a' ha ha' heq

variable [DecidableEq Key] [DecidableEq Slot]

omit [DecidableEq Key] in
/-- A variable that is written has what was written, and the others have what they had. -/
theorem update_eq_some {o : Option (Claim Key Val)} {b : Claim Key Val} (hw : Function.update σ v o w = some b) :
    w = v ∧ o = some b ∨ w ≠ v ∧ σ w = some b := by
  by_cases hwv : w = v
  · subst hwv
    rw [Function.update_self] at hw
    exact .inl ⟨rfl, hw⟩
  · rw [Function.update_of_ne hwv] at hw
    exact .inr ⟨hwv, hw⟩

/-- The resource that is written has what is known of it, and so do the others. -/
theorem held_update (h : Owns σ g) (hx : P x) (hothers : ∀ w b, w ≠ v → σ w = some b → b.key ≠ k) :
    ∀ w b, Function.update σ v (some ⟨k, P⟩) w = some b →
      ∃ y, Function.update g k (some x) b.key = some y ∧ b.known y := by
  intro w b hw
  rcases update_eq_some hw with ⟨rfl, hb⟩ | ⟨hwv, hold⟩
  · obtain rfl := Option.some.inj hb
    exact ⟨x, Function.update_self .., hx⟩
  · rw [Function.update_of_ne (hothers w b hwv hold)]
    exact h.held w b hold

/-- A new resource goes into an empty variable. -/
theorem take (h : Owns σ g) (hv : σ v = none) (hk : g k = none) (hx : P x) :
    Owns (Function.update σ v (some ⟨k, P⟩)) (Function.update g k (some x)) := by
  have hfresh : ∀ w b, σ w = some b → b.key ≠ k := by
    rintro w b hw rfl
    obtain ⟨y, hy, -⟩ := h.held w b hw
    rw [hk] at hy
    cases hy
  refine ⟨fun k' y hy => ?_, h.held_update hx fun w b _ => hfresh w b, fun w w' b b' hw hw' heq => ?_⟩
  · by_cases hkk : k' = k
    · exact ⟨v, ⟨k, P⟩, Function.update_self .., hkk.symm⟩
    · rw [Function.update_of_ne hkk] at hy
      obtain ⟨w, b, hw, rfl⟩ := h.all k' y hy
      refine ⟨w, b, ?_, rfl⟩
      rw [Function.update_of_ne]
      · exact hw
      · rintro rfl
        rw [hv] at hw
        cases hw
  · rcases update_eq_some hw with ⟨rfl, hb⟩ | ⟨-, hold⟩
    · obtain rfl := Option.some.inj hb
      rcases update_eq_some hw' with ⟨rfl, -⟩ | ⟨-, hold'⟩
      · rfl
      · exact absurd heq.symm (hfresh w' b' hold')
    · rcases update_eq_some hw' with ⟨-, hb'⟩ | ⟨-, hold'⟩
      · obtain rfl := Option.some.inj hb'
        exact absurd heq (hfresh w b hold)
      · exact h.apart w w' b b' hold hold' heq

/-- The resource in a variable changes. -/
theorem change (h : Owns σ g) (hv : σ v = some a) (hx : P x) :
    Owns (Function.update σ v (some ⟨a.key, P⟩)) (Function.update g a.key (some x)) := by
  have hsame : ∀ w b, Function.update σ v (some ⟨a.key, P⟩) w = some b →
      ∃ b', σ w = some b' ∧ b'.key = b.key := by
    intro w b hw
    rcases update_eq_some hw with ⟨rfl, hb⟩ | ⟨-, hold⟩
    · obtain rfl := Option.some.inj hb
      exact ⟨a, hv, rfl⟩
    · exact ⟨b, hold, rfl⟩
  have hothers : ∀ w b, w ≠ v → σ w = some b → b.key ≠ a.key :=
    fun w b hwv hw heq => hwv (h.apart w v b a hw hv heq)
  refine ⟨fun k' y hy => ?_, h.held_update hx hothers, fun w w' b b' hw hw' heq => ?_⟩
  · by_cases hkk : k' = a.key
    · exact ⟨v, ⟨a.key, P⟩, Function.update_self .., hkk.symm⟩
    · rw [Function.update_of_ne hkk] at hy
      obtain ⟨w, b, hwv, hw, rfl, -⟩ := h.other hv hkk hy
      exact ⟨w, b, by rw [Function.update_of_ne hwv]; exact hw, rfl⟩
  · obtain ⟨c, hc, hkey⟩ := hsame w b hw
    obtain ⟨c', hc', hkey'⟩ := hsame w' b' hw'
    exact h.apart w w' c c' hc hc' (hkey.trans (heq.trans hkey'.symm))

/-- The resource in a variable is given up. -/
theorem release (h : Owns σ g) (hv : σ v = some a) :
    Owns (Function.update σ v none) (Function.update g a.key none) := by
  have hold : ∀ w b, Function.update σ v none w = some b → w ≠ v ∧ σ w = some b := by
    intro w b hw
    rcases update_eq_some hw with ⟨-, hb⟩ | hold
    · cases hb
    · exact hold
  refine ⟨fun k' y hy => ?_, fun w b hw => ?_, fun w w' b b' hw hw' heq => ?_⟩
  · by_cases hkk : k' = a.key
    · rw [hkk, Function.update_self] at hy
      cases hy
    · rw [Function.update_of_ne hkk] at hy
      obtain ⟨w, b, hwv, hw, rfl, -⟩ := h.other hv hkk hy
      exact ⟨w, b, by rw [Function.update_of_ne hwv]; exact hw, rfl⟩
  · obtain ⟨hwv, hw⟩ := hold w b hw
    have hne : b.key ≠ a.key := fun heq => hwv (h.apart w v b a hw hv heq)
    rw [Function.update_of_ne hne]
    exact h.held w b hw
  · exact h.apart w w' b b' (hold w b hw).2 (hold w' b' hw').2 heq

omit [DecidableEq Key] in
/-- Less may be claimed of one resource. -/
theorem weaken {P' : Val → Prop} (h : Owns (Function.update σ v (some ⟨k, P⟩)) g)
    (himp : ∀ x, P x → P' x) : Owns (Function.update σ v (some ⟨k, P'⟩)) g := by
  refine h.mono (fun w hw => ?_) fun w b hw => ?_
  · by_cases hwv : w = v
    · rw [hwv, Function.update_self] at hw
      cases hw
    · rw [Function.update_of_ne hwv] at hw ⊢
      exact hw
  · by_cases hwv : w = v
    · subst hwv
      rw [Function.update_self] at hw ⊢
      obtain rfl := Option.some.inj hw
      exact ⟨P', rfl, himp⟩
    · rw [Function.update_of_ne hwv] at hw ⊢
      exact ⟨b.known, hw, fun _ hx => hx⟩

omit [DecidableEq Key] in
/-- The resource in a variable moves to an empty one. -/
theorem move (h : Owns σ g) (hv : σ v = some a) (hw : σ w = none) :
    Owns (Function.update (Function.update σ v none) w (some a)) g := by
  have hold : ∀ u b, Function.update (Function.update σ v none) w (some a) u = some b →
      u = w ∧ b = a ∨ u ≠ w ∧ u ≠ v ∧ σ u = some b := by
    intro u b hu
    rcases update_eq_some hu with ⟨huw, hb⟩ | ⟨huw, hu⟩
    · exact .inl ⟨huw, (Option.some.inj hb).symm⟩
    · rcases update_eq_some hu with ⟨-, hb⟩ | hold
      · cases hb
      · exact .inr ⟨huw, hold⟩
  refine ⟨fun k' y hy => ?_, fun u b hu => ?_, fun u u' b b' hu hu' heq => ?_⟩
  · obtain ⟨u, b, hu, rfl⟩ := h.all k' y hy
    by_cases huv : u = v
    · subst huv
      rw [hv] at hu
      obtain rfl := Option.some.inj hu
      exact ⟨w, a, Function.update_self .., rfl⟩
    · refine ⟨u, b, ?_, rfl⟩
      have huw : u ≠ w := by
        rintro rfl
        rw [hw] at hu
        cases hu
      rw [Function.update_of_ne huw, Function.update_of_ne huv]
      exact hu
  · rcases hold u b hu with ⟨-, rfl⟩ | ⟨-, -, hu⟩
    · exact h.held v b hv
    · exact h.held u b hu
  · rcases hold u b hu with ⟨rfl, rfl⟩ | ⟨-, huv, h₁⟩ <;>
      rcases hold u' b' hu' with ⟨rfl, rfl⟩ | ⟨-, huv', h₂⟩
    · rfl
    · exact absurd (h.apart u' v b' b h₂ hv heq.symm) huv'
    · exact absurd (h.apart u v b b' h₁ hv heq) huv
    · exact h.apart u u' b b' h₁ h₂ heq

end Owns

end TurbineProxy
