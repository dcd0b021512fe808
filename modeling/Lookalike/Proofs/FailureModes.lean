import Lookalike.Proofs.CanonicalConfig
import Lookalike.Proofs.Wiring

/-! # The failure mode of a service

The check of a configuration and its canonical form drop blanks around the word for the failure mode;
the mode of a service goes by the word as it is written.  So a canonical configuration gives the mode
that it asks for, and any other gives a strict service as soon as there are blanks around the word,
although the check accepts it.

Main statement: `ofConfigWith_lenient_iff`. -/

namespace Lookalike

/-- Settings that ask for lenient sweeps, up to blanks around the word and the case of its letters. -/
def Matching.AsksLenient (m : Matching) : Prop :=
  Text.sameWord (Text.trim m.failureMode) "lenient" = true

instance (m : Matching) : Decidable m.AsksLenient := inferInstanceAs (Decidable (_ = true))

theorem Matching.asksLenient_iff {m : Matching} :
    m.AsksLenient ↔ Text.canonicalWord m.failureMode = "lenient" :=
  Text.sameWord_trim_iff (lowerAscii_failureModeWords _ (by decide))

theorem Matching.asksLenient_normalize {m : Matching} : m.normalize.AsksLenient ↔ m.AsksLenient := by
  rw [asksLenient_iff, asksLenient_iff, normalize, Text.canonicalWord_canonicalWord]

namespace FailureMode

theorem ofMatching_eq_lenient_iff_lowerAscii {m : Matching} :
    ofMatching m = .lenient ↔ Text.lowerAscii m.failureMode = "lenient" := by
  have hword : Text.lowerAscii "lenient" = "lenient" := lowerAscii_failureModeWords _ (by decide)
  rw [ofMatching, ← hword, ← Text.sameWord_iff]
  split <;> simp_all

/-- Settings are lenient when they ask for it and there are no blanks around the word. -/
theorem ofMatching_eq_lenient_iff {m : Matching} :
    ofMatching m = .lenient ↔ m.AsksLenient ∧ Text.trim m.failureMode = m.failureMode := by
  rw [ofMatching_eq_lenient_iff_lowerAscii, Matching.asksLenient_iff, Text.canonicalWord]
  constructor
  · intro h
    have htrim := Text.trim_eq_self_of_lowerAscii h (by simp [Text.isSpace])
    exact ⟨by rw [htrim, h], htrim⟩
  · rintro ⟨h, htrim⟩
    rwa [htrim] at h

theorem ofMatching_normalize_eq_lenient_iff {m : Matching} :
    ofMatching m.normalize = .lenient ↔ m.AsksLenient := by
  rw [ofMatching_eq_lenient_iff, Matching.asksLenient_normalize]
  refine and_iff_left ?_
  rw [Matching.normalize, Text.canonicalWord, Text.trim_lowerAscii, Text.trim_trim]

theorem eq_iff {a b : FailureMode} : a = b ↔ (a = .lenient ↔ b = .lenient) := by
  cases a <;> cases b <;> decide

end FailureMode

namespace DuplicateService

variable {σ : Type} {c : Config}

theorem Serves.failureMode {s : DuplicateService σ} {backend : SearchBackend σ}
    {state : IdentityState σ} (h : s.Serves c backend state) :
    s.failureMode = .ofMatching c.matching := by
  rw [h.parts]
  rfl

/-- The services of a valid configuration and of its canonical form.  That of the canonical form is
lenient exactly when the configuration asks for it, the other only without blanks around the word; so
the two agree unless the configuration asks for lenient sweeps with blanks around the word. -/
theorem ofConfigWith_lenient_iff (h : c.validate = .ok ()) (backend : SearchBackend σ)
    (state : IdentityState σ) :
    ∃ s t, ofConfigWith c backend state = pure s ∧ ofConfigWith c.normalize backend state = pure t ∧
      (t.failureMode = .lenient ↔ c.matching.AsksLenient) ∧
      (s.failureMode = .lenient ↔
        c.matching.AsksLenient ∧ Text.trim c.matching.failureMode = c.matching.failureMode) ∧
      (s.failureMode = t.failureMode ↔
        (c.matching.AsksLenient → Text.trim c.matching.failureMode = c.matching.failureMode)) := by
  have hcanonical : c.normalize.validate = .ok () := by
    rw [Config.validate_normalize, h]
  obtain ⟨s, hs, hserves⟩ := exists_ofConfigWith h backend state
  obtain ⟨t, ht, htserves⟩ := exists_ofConfigWith hcanonical backend state
  have hslenient : s.failureMode = .lenient ↔
      c.matching.AsksLenient ∧ Text.trim c.matching.failureMode = c.matching.failureMode := by
    rw [hserves.failureMode]
    exact FailureMode.ofMatching_eq_lenient_iff
  have htlenient : t.failureMode = .lenient ↔ c.matching.AsksLenient := by
    rw [htserves.failureMode]
    exact FailureMode.ofMatching_normalize_eq_lenient_iff
  refine ⟨s, t, hs, ht, htlenient, hslenient, ?_⟩
  rw [FailureMode.eq_iff, hslenient, htlenient, and_iff_left_iff_imp]

/-- A configuration that asks for lenient sweeps, with blanks around the word. -/
def paddedMode : Config where
  service := {}
  backend := { url := "http://127.0.0.1:9200", index := "identities" }
  matching := { failureMode := " lenient " }

/-- Its service is strict, that of its canonical form lenient. -/
theorem ofConfigWith_lenient_iff_paddedMode :
    ∃ s t : DuplicateService (List (List Descriptor × Window)),
      ofConfigWith paddedMode ({} : ScriptedBackend).backend (.empty _) = pure s ∧
      ofConfigWith paddedMode.normalize ({} : ScriptedBackend).backend (.empty _) = pure t ∧
      s.failureMode ≠ .lenient ∧ t.failureMode = .lenient := by
  obtain ⟨s, t, hs, ht, htlenient, hslenient, -⟩ :=
    ofConfigWith_lenient_iff (c := paddedMode) rfl ({} : ScriptedBackend).backend (.empty _)
  exact ⟨s, t, hs, ht, fun h => absurd (hslenient.mp h).2 (by decide), htlenient.mpr (by decide)⟩

/-- The check accepts the configuration, which asks for lenient sweeps and gets strict ones. -/
theorem paddedMode_strict : paddedMode.validate = .ok () ∧ paddedMode.matching.AsksLenient ∧
    FailureMode.ofMatching paddedMode.matching = .strict := by
  refine ⟨rfl, ?_, ?_⟩ <;> decide

end DuplicateService

end Lookalike
