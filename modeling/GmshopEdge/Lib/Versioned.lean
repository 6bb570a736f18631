/-!
# Values kept under a revision

An authority has, for some keys, a value with a revision; a key may also be gone for good. Readers keep what they
have read, each value under its key and revision. As long as the authority only moves on (a revision never falls,
and keeps its value), all that was ever read agrees, and what was read at the current revision is the current value
(`Sound.moves`, `Sound.read`, `Sound.agree`).
-/

namespace Versioned

/-- What the authority has under a key, and the keys that do not come back. -/
structure Authority (σ κ α : Type) where
  current : σ → κ → Option (Nat × α)
  gone : σ → κ → Prop

variable {σ κ α : Type} {A : Authority σ κ α}

/-- The revision of a key grows, or stays with its value. -/
structure Moves (A : Authority σ κ α) (s t : σ) : Prop where
  gone : ∀ k, A.gone s k → A.gone t k
  current : ∀ k r a, A.current s k = some (r, a) →
    A.gone t k ∨ ∃ r' a', A.current t k = some (r', a') ∧ r ≤ r' ∧ (r' = r → a' = a)

/-- What was read, of a state and all before it. -/
structure Sound (A : Authority σ κ α) (s : σ) (reads : κ → Nat → α → Prop) : Prop where
  gone : ∀ k, A.gone s k → A.current s k = none
  agree : ∀ k r a a', reads k r a → reads k r a' → a = a'
  fits : ∀ k r a, reads k r a → A.gone s k ∨
    ∃ r' a', A.current s k = some (r', a') ∧ r ≤ r' ∧ (r' = r → a' = a)

variable {s : σ} {reads : κ → Nat → α → Prop}

theorem Sound.same {t : σ} (h : Sound A s reads) (hgone : A.gone t = A.gone s)
    (hcurrent : A.current t = A.current s) : Sound A t reads where
  gone := by
    rw [hgone, hcurrent]
    exact h.gone
  agree := h.agree
  fits := by
    rw [hgone, hcurrent]
    exact h.fits

theorem Sound.moves {t : σ} (h : Sound A s reads) (hm : Moves A s t)
    (hgone : ∀ k, A.gone t k → A.current t k = none) : Sound A t reads where
  gone := hgone
  agree := h.agree
  fits k r a hr := by
    rcases h.fits k r a hr with hk | ⟨r', a', hk, hle, hsame⟩
    · exact Or.inl (hm.gone k hk)
    rcases hm.current k r' a' hk with hk' | ⟨r'', a'', hk', hle', hsame'⟩
    · exact Or.inl hk'
    · refine Or.inr ⟨r'', a'', hk', Nat.le_trans hle hle', fun heq => ?_⟩
      have hmid : r' = r := Nat.le_antisymm (heq ▸ hle') hle
      exact (hsame' (heq.trans hmid.symm)).trans (hsame hmid)

theorem Sound.current (h : Sound A s reads) {k : κ} {r : Nat} {a a' : α} (hr : reads k r a)
    (hk : A.current s k = some (r, a')) : a = a' := by
  rcases h.fits k r a hr with hgone | ⟨r', b, hk', -, hsame⟩
  · rw [h.gone k hgone] at hk
    cases hk
  · rw [hk'] at hk
    obtain ⟨rfl, rfl⟩ := Prod.mk.inj (Option.some.inj hk)
    exact (hsame rfl).symm

theorem Sound.read (h : Sound A s reads) {k : κ} {r : Nat} {a : α} (hk : A.current s k = some (r, a)) :
    Sound A s fun k' r' a' => reads k' r' a' ∨ (k' = k ∧ r' = r ∧ a' = a) where
  gone := h.gone
  agree k' r' b b' hb hb' := by
    rcases hb with hb | ⟨rfl, rfl, rfl⟩ <;> rcases hb' with hb' | ⟨hk', hr', rfl⟩
    · exact h.agree k' r' b b' hb hb'
    · subst hk' hr'
      exact h.current hb hk
    · exact (h.current hb' hk).symm
    · rfl
  fits k' r' b hb := by
    rcases hb with hb | ⟨rfl, rfl, rfl⟩
    · exact h.fits k' r' b hb
    · exact Or.inr ⟨_, _, hk, Nat.le_refl _, fun _ => rfl⟩

end Versioned
