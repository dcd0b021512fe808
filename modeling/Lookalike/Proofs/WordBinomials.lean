import Lookalike.Combination
import Mathlib.Data.Nat.Choose.Basic

/-! # Binomial coefficients in words

`wordBinomial` takes one factor after the other and divides each product by the number of factors taken.
After `i` factors it holds `C(n, i)`, so each division leaves no rest.  The products are `j * C(n, j)`,
which grow up to the middle of a row, so whether the last one fits a word decides whether there is a result.

Main statement: `wordBinomial_exact`. -/

namespace Lookalike

/-! ### The products of a row -/

/-- Up to the middle of a row no product is less than the one before. -/
theorem mul_choose_le_succ {n j : ℕ} (h : 2 * j ≤ n) :
    j * n.choose j ≤ (j + 1) * n.choose (j + 1) := by
  calc j * n.choose j ≤ (n - j) * n.choose j := Nat.mul_le_mul_right _ (by omega)
    _ = n.choose j * (n - j) := Nat.mul_comm _ _
    _ = n.choose (j + 1) * (j + 1) := (Nat.choose_succ_right_eq n j).symm
    _ = (j + 1) * n.choose (j + 1) := Nat.mul_comm _ _

theorem mul_choose_le {n i j : ℕ} (hij : i ≤ j) (hj : 2 * j ≤ n) :
    i * n.choose i ≤ j * n.choose j := by
  induction j, hij using Nat.le_induction with
  | base => exact le_rfl
  | succ j hij ih => exact (ih (by omega)).trans (mul_choose_le_succ (by omega))

/-! ### Steps in words -/

section steps

variable {n acc i : UInt64}

theorem wordProduct?_of_lt {a b : UInt64} (h : a.toNat * b.toNat < UInt64.size) :
    ∃ product, wordProduct? a b = some product ∧ product.toNat = a.toNat * b.toNat :=
  ⟨a * b, if_pos h, by rw [UInt64.toNat_mul, Nat.mod_eq_of_lt h]⟩

theorem wordProduct?_of_le {a b : UInt64} (h : UInt64.size ≤ a.toNat * b.toNat) :
    wordProduct? a b = none := if_neg (Nat.not_lt.mpr h)

theorem toNat_succ_of_lt (h : i < n) : (i + 1).toNat = i.toNat + 1 := by
  have hi := UInt64.lt_iff_toNat_lt.mp h
  have hn := n.toNat_lt_size
  rw [UInt64.toNat_add]
  exact Nat.mod_eq_of_lt (by simp only [UInt64.toNat_one, UInt64.size] at *; omega)

/-- The product of a coefficient and the next factor is a multiple of the next coefficient. -/
theorem mul_factor (hacc : acc.toNat = n.toNat.choose i.toNat) (hi : i ≤ n) :
    acc.toNat * (n - i).toNat = (i.toNat + 1) * n.toNat.choose (i.toNat + 1) := by
  rw [hacc, UInt64.toNat_sub_of_le _ _ hi, ← Nat.choose_succ_right_eq, Nat.mul_comm]

theorem toNat_quotient {product : UInt64} (hi : i < n)
    (hproduct : product.toNat = (i.toNat + 1) * n.toNat.choose (i.toNat + 1)) :
    (product / (i + 1)).toNat = n.toNat.choose (i + 1).toNat := by
  rw [UInt64.toNat_div, toNat_succ_of_lt hi, hproduct, Nat.mul_div_cancel_left _ (Nat.succ_pos _)]

end steps

/-! ### Runs -/

/-- A run of several factors is one of the first of them and goes on from there. -/
theorem binomialFrom_add (n acc i : UInt64) (first more : ℕ) :
    binomialFrom n acc i (first + more) =
      (binomialFrom n acc i first).bind fun acc => binomialFrom n acc (i + .ofNat first) more := by
  induction first generalizing acc i with
  | zero => simp [binomialFrom]
  | succ first ih =>
      have hplace (j : UInt64) : j + 1 + .ofNat first = j + .ofNat (first + 1) := by
        rw [UInt64.add_assoc, UInt64.add_comm 1]
        simp
      rw [Nat.add_right_comm, binomialFrom, binomialFrom]
      cases wordProduct? acc (n - i) with
      | none => rfl
      | some product =>
          dsimp only
          rw [ih, hplace]

/-- From a coefficient on, in the first half of a row, a run gives the coefficient at its end if the
product for that one fits a word, and nothing otherwise. -/
theorem map_binomialFrom {n acc i : UInt64} {more : ℕ} (hacc : acc.toNat = n.toNat.choose i.toNat)
    (hhalf : 2 * (i.toNat + more) ≤ n.toNat) (hfits : i.toNat * n.toNat.choose i.toNat < UInt64.size) :
    (binomialFrom n acc i more).map UInt64.toNat =
      if (i.toNat + more) * n.toNat.choose (i.toNat + more) < UInt64.size then
        some (n.toNat.choose (i.toNat + more))
      else none := by
  induction more generalizing acc i with
  | zero => rw [Nat.add_zero, if_pos hfits, binomialFrom, Option.map_some, hacc]
  | succ more ih =>
      have hi : i < n := UInt64.lt_iff_toNat_lt.mpr (by omega)
      have hsucc := toNat_succ_of_lt hi
      have hfactor := mul_factor hacc (UInt64.le_of_lt hi)
      have hend : i.toNat + (more + 1) = (i + 1).toNat + more := by omega
      rw [binomialFrom, hend]
      by_cases hnext : (i.toNat + 1) * n.toNat.choose (i.toNat + 1) < UInt64.size
      · obtain ⟨product, hsome, hproduct⟩ := wordProduct?_of_lt (hfactor ▸ hnext)
        rw [hsome]
        refine ih (toNat_quotient hi (hproduct.trans hfactor)) (by omega) ?_
        rwa [hsucc]
      · have hlater := mul_choose_le (n := n.toNat) (i := (i + 1).toNat)
          (j := (i + 1).toNat + more) (Nat.le_add_right _ _) (by omega)
        rw [hsucc] at hlater ⊢
        rw [wordProduct?_of_le (hfactor ▸ Nat.not_lt.mp hnext), if_neg (by omega)]
        rfl

/-! ### Coefficients -/

/-- The number of factors: the smaller of what is selected and what is left. -/
theorem toNat_factors {n k : UInt64} (h : k ≤ n) :
    (min k (n - k)).toNat = min k.toNat (n.toNat - k.toNat) := by
  have hmin : (min k (n - k)).toNat = min k.toNat (n - k).toNat := by
    show (if k ≤ n - k then k else n - k).toNat = if k.toNat ≤ (n - k).toNat then _ else _
    simp only [UInt64.le_iff_toNat_le]
    split <;> rfl
  rw [hmin, UInt64.toNat_sub_of_le _ _ h]

theorem choose_min {n k : ℕ} (h : k ≤ n) : n.choose (min k (n - k)) = n.choose k := by
  rcases Nat.le_total k (n - k) with hle | hle
  · rw [Nat.min_eq_left hle]
  · rw [Nat.min_eq_right hle, Nat.choose_symm h]

theorem map_binomialFrom_one {n : UInt64} {more : ℕ} (h : 2 * more ≤ n.toNat) :
    (binomialFrom n 1 0 more).map UInt64.toNat =
      if more * n.toNat.choose more < UInt64.size then some (n.toNat.choose more) else none := by
  have hstart : (1 : UInt64).toNat = n.toNat.choose (0 : UInt64).toNat := by simp
  have hhalf : 2 * ((0 : UInt64).toNat + more) ≤ n.toNat := by simpa using h
  simpa using map_binomialFrom hstart hhalf (by simp [UInt64.size])

theorem map_wordBinomial (n k : UInt64) :
    (wordBinomial n k).map UInt64.toNat =
      if n.toNat < k.toNat then some 0
      else
        let m := min k.toNat (n.toNat - k.toNat)
        if m * n.toNat.choose m < UInt64.size then some (n.toNat.choose k.toNat) else none := by
  by_cases hlt : n.toNat < k.toNat
  · rw [wordBinomial, if_pos hlt, if_pos (UInt64.lt_iff_toNat_lt.mpr hlt)]
    rfl
  · have hle : k ≤ n := UInt64.le_iff_toNat_le.mpr (Nat.not_lt.mp hlt)
    rw [wordBinomial, if_neg hlt, if_neg (UInt64.not_lt.mpr hle), toNat_factors hle,
      map_binomialFrom_one (by omega)]
    dsimp only
    rw [choose_min (Nat.not_lt.mp hlt)]

/-- What is given is the number of selections. -/
theorem binomial_eq_some {n k c : ℕ} (h : binomial n k = some c) : c = n.choose k := by
  unfold binomial at h
  split_ifs at h with hwords
  rw [map_wordBinomial, UInt64.toNat_ofNat_of_lt' hwords.1, UInt64.toNat_ofNat_of_lt' hwords.2] at h
  dsimp only at h
  split_ifs at h with hlt hfits
  · rw [Nat.choose_eq_zero_of_lt hlt]
    exact (Option.some.inj h).symm
  · exact (Option.some.inj h).symm

/-- A step of the run for `k` out of `n`: the run of the first `i` factors is part of it and holds `C(n, i)`,
the next factor `n - i` does not fall below zero, and the product is a multiple of its divisor. -/
structure ExactStep (n k i : UInt64) : Prop where
  passed : wordBinomial n k = (binomialFrom n 1 0 i.toNat).bind fun acc =>
    (wordProduct? acc (n - i)).bind fun product =>
      binomialFrom n (product / (i + 1)) (i + 1) ((min k (n - k)).toNat - i.toNat - 1)
  factor : i ≤ n
  holds : ∀ acc, binomialFrom n 1 0 i.toNat = some acc → acc.toNat = n.toNat.choose i.toNat
  divides : ∀ acc, binomialFrom n 1 0 i.toNat = some acc → (i + 1).toNat ∣ acc.toNat * (n - i).toNat

theorem exactStep {n k i : UInt64} (hk : k ≤ n) (hi : i < min k (n - k)) : ExactStep n k i := by
  have hfactors := toNat_factors hk
  have hplace := UInt64.lt_iff_toNat_lt.mp hi
  have hle : k.toNat ≤ n.toNat := UInt64.le_iff_toNat_le.mp hk
  have hn : i < n := UInt64.lt_iff_toNat_lt.mpr (by omega)
  have hholds (acc : UInt64) (hacc : binomialFrom n 1 0 i.toNat = some acc) :
      acc.toNat = n.toNat.choose i.toNat := by
    have hhalf : 2 * i.toNat ≤ n.toNat := by omega
    have hrun := map_binomialFrom_one hhalf
    rw [hacc, Option.map_some] at hrun
    split_ifs at hrun
    exact Option.some.inj hrun
  constructor
  case factor => exact UInt64.le_of_lt hn
  case holds => exact hholds
  case passed =>
    obtain ⟨more, hmore⟩ := Nat.exists_eq_add_of_lt hplace
    have hrest : i.toNat + more + 1 - i.toNat - 1 = more := by omega
    rw [wordBinomial, if_neg (UInt64.not_lt.mpr hk), hmore, hrest, Nat.add_assoc, binomialFrom_add]
    refine Option.bind_congr fun acc _ => ?_
    rw [UInt64.zero_add, UInt64.ofNat_toNat, binomialFrom]
    cases wordProduct? acc (n - i) with
    | none => rfl
    | some product => rfl
  case divides =>
    intro acc hacc
    rw [toNat_succ_of_lt hn, mul_factor (hholds acc hacc) (UInt64.le_of_lt hn)]
    exact Nat.dvd_mul_right _ _

/-- `wordBinomial` is exact or silent: it gives the binomial coefficient if the product for it, which is the
greatest, fits a word, and nothing otherwise.  On the way no subtraction falls below zero and no division
leaves a rest. -/
theorem wordBinomial_exact (n k : UInt64) :
    (wordBinomial n k).map UInt64.toNat =
        (if n.toNat < k.toNat then some 0
        else
          let m := min k.toNat (n.toNat - k.toNat)
          if m * n.toNat.choose m < UInt64.size then some (n.toNat.choose k.toNat) else none) ∧
      (k ≤ n → (n - k).toNat = n.toNat - k.toNat ∧ ∀ i < min k (n - k), ExactStep n k i) :=
  ⟨map_wordBinomial n k, fun hk => ⟨UInt64.toNat_sub_of_le _ _ hk, fun _ hi => exactStep hk hi⟩⟩

/-- The selections of 33 out of 66 are fewer than the words, but their product with 33 is not, so nothing is
given; the steps on the way are exact all the same. -/
theorem wordBinomial_exact_middle :
    (33 : UInt64) ≤ 66 ∧ (20 : UInt64) < min 33 (66 - 33) ∧ wordBinomial 66 33 = none ∧
      binomialFrom 66 1 0 20 = some 40661170824914640 ∧ (20 + 1) ∣ 40661170824914640 * (66 - 20) := by
  have hle : (33 : UInt64) ≤ 66 := by decide
  have hlt : (20 : UInt64) < min 33 (66 - 33) := by decide
  have hrun : binomialFrom 66 1 0 20 = some 40661170824914640 := by decide
  have hstep := ((wordBinomial_exact 66 33).2 hle).2 20 hlt
  exact ⟨hle, hlt, by decide, hrun, hstep.divides _ hrun⟩

end Lookalike
