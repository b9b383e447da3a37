/-!
# Places and what backs them

Some places are in use, and some of those are backed by an item each. `Backing` says that
the backed places are mapped to distinct items, all of them owned, that nothing but places in
use is mapped, and if `full` holds, that all of these are. Bringing places into
use and giving them up keeps this.
-/

namespace GarbageOS.Lib

variable {ι φ : Type} {full : Prop} {used used' backed backed' mapped mapped' R : ι → Prop}
  {item item' : ι → φ} {owned owned' : φ → Prop}

structure Backing (full : Prop) (used backed mapped : ι → Prop) (item : ι → φ) (owned : φ → Prop) :
    Prop where
  mapped_iff : full → ∀ q, mapped q ↔ used q
  only_used : ∀ q, mapped q → used q
  mapped : ∀ q, backed q → mapped q
  owned : ∀ q, backed q → owned (item q)
  distinct : ∀ q r, backed q → backed r → item q = item r → q = r

/-- The places `R` come into use, the backed ones among them with new items. -/
theorem Backing.extend (h : Backing full used backed mapped item owned)
    (hused : ∀ q, used' q ↔ used q ∨ R q) (hbacked : ∀ q, backed' q → backed q ∨ R q)
    (hsame : ∀ q, ¬ R q → (mapped' q ↔ mapped q) ∧ item' q = item q)
    (hmapped : ∀ q, R q → full ∨ backed' q → mapped' q)
    (hnew : ∀ q, R q → backed' q → owned' (item' q) ∧ ¬ owned (item' q))
    (hinj : ∀ q r, R q → R r → backed' q → backed' r → item' q = item' r → q = r)
    (hkept : ∀ a, owned a → owned' a) : Backing full used' backed' mapped' item' owned' where
  mapped_iff hfull q := by
    by_cases hq : R q
    · exact iff_of_true (hmapped q hq (.inl hfull)) ((hused q).2 (.inr hq))
    · rw [(hsame q hq).1, h.mapped_iff hfull, hused]
      exact ⟨.inl, fun hu => hu.resolve_right hq⟩
  only_used q hq := by
    by_cases hR : R q
    · exact (hused q).2 (.inr hR)
    · exact (hused q).2 (.inl (h.only_used q ((hsame q hR).1.1 hq)))
  mapped q hq := by
    by_cases hR : R q
    · exact hmapped q hR (.inr hq)
    · exact (hsame q hR).1.2 (h.mapped q ((hbacked q hq).resolve_right hR))
  owned q hq := by
    by_cases hR : R q
    · exact (hnew q hR hq).1
    · rw [(hsame q hR).2]
      exact hkept _ (h.owned q ((hbacked q hq).resolve_right hR))
  distinct q r hq hr he := by
    -- an old place and its item, which no new place can have
    have hold : ∀ s, ¬ R s → backed' s → item' s = item s ∧ owned (item s) := fun s hs hb =>
      ⟨(hsame s hs).2, h.owned s ((hbacked s hb).resolve_right hs)⟩
    by_cases hRq : R q <;> by_cases hRr : R r
    · exact hinj q r hRq hRr hq hr he
    · obtain ⟨h1, h2⟩ := hold r hRr hr
      exact ((hnew q hRq hq).2 (by rw [he, h1]; exact h2)).elim
    · obtain ⟨h1, h2⟩ := hold q hRq hq
      exact ((hnew r hRr hr).2 (by rw [← he, h1]; exact h2)).elim
    · rw [(hold q hRq hq).1, (hold r hRr hr).1] at he
      exact h.distinct q r ((hbacked q hq).resolve_right hRq) ((hbacked r hr).resolve_right hRr) he

/-- The places `R` are given up with their items. -/
theorem Backing.shrink (h : Backing full used backed mapped item owned)
    (hused : ∀ q, used' q ↔ used q ∧ ¬ R q) (hbacked : ∀ q, backed' q → backed q ∧ ¬ R q)
    (hsame : ∀ q, ¬ R q → (mapped' q ↔ mapped q) ∧ item' q = item q)
    (hgone : ∀ q, R q → ¬ mapped' q)
    (hkept : ∀ a, owned a → (∀ q, R q → backed q → a ≠ item q) → owned' a) :
    Backing full used' backed' mapped' item' owned' where
  mapped_iff hfull q := by
    by_cases hq : R q
    · refine iff_of_false (hgone q hq) fun hu => ?_
      exact ((hused q).1 hu).2 hq
    · rw [(hsame q hq).1, h.mapped_iff hfull, hused]
      exact ⟨fun hu => ⟨hu, hq⟩, And.left⟩
  only_used q hq := by
    have hR : ¬ R q := fun hR => hgone q hR hq
    exact (hused q).2 ⟨h.only_used q ((hsame q hR).1.1 hq), hR⟩
  mapped q hq := by
    obtain ⟨hb, hR⟩ := hbacked q hq
    exact (hsame q hR).1.2 (h.mapped q hb)
  owned q hq := by
    obtain ⟨hb, hR⟩ := hbacked q hq
    rw [(hsame q hR).2]
    refine hkept _ (h.owned q hb) fun r hr hbr he => ?_
    exact hR (h.distinct q r hb hbr he ▸ hr)
  distinct q r hq hr he := by
    obtain ⟨hbq, hRq⟩ := hbacked q hq
    obtain ⟨hbr, hRr⟩ := hbacked r hr
    rw [(hsame q hRq).2, (hsame r hRr).2] at he
    exact h.distinct q r hbq hbr he

end GarbageOS.Lib
