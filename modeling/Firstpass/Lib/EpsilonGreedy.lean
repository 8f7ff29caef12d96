import Mathlib.MeasureTheory.Measure.Lebesgue.Basic
import Mathlib.MeasureTheory.Measure.Real

/-!
# Epsilon-greedy choice from one uniform draw

A draw below `ε` is spread over the arms, any other takes the greedy one. The weight of
an arm is the probability of the draws that pick it, and what a map of the arms hits has
the weight of a single arm exactly if no other arm goes there.
-/

namespace EpsilonGreedy

open MeasureTheory Set

variable {ε : ℝ} {k greedy : ℕ}

/-- The arm of a draw. -/
noncomputable def pick (ε : ℝ) (k greedy : ℕ) (u : ℝ) : ℕ :=
  if u < ε then min ⌊u / ε * k⌋₊ (k - 1) else greedy

noncomputable def weight (ε : ℝ) (k greedy arm : ℕ) : ℝ :=
  (if arm = greedy then 1 - ε else 0) + ε / k

/-- The probability of a set of uniform draws. -/
noncomputable def prob (draws : Set ℝ) : ℝ := volume.real (Ico 0 1 ∩ draws)

theorem pick_lt (hgreedy : greedy < k) (u : ℝ) : pick ε k greedy u < k := by
  unfold pick
  split_ifs
  · exact (min_le_right _ _).trans_lt (Nat.sub_lt (by omega) one_pos)
  · exact hgreedy

section
variable (h0 : 0 < ε) (h1 : ε ≤ 1)
include h0

theorem weight_pos (h1 : ε ≤ 1) (hk : 0 < k) (arm : ℕ) : 0 < weight ε k greedy arm := by
  have hspread : 0 < ε / k := div_pos h0 (by exact_mod_cast hk)
  unfold weight
  split_ifs
  · exact add_pos_of_nonneg_of_pos (sub_nonneg.mpr h1) hspread
  · rwa [zero_add]

/-- A draw below `ε` picks the arm whose share of `[0, ε)` it falls in. -/
theorem spread_iff (hk : 0 < k) (hu : 0 ≤ u) (hε : u < ε) (arm : ℕ) :
    min ⌊u / ε * k⌋₊ (k - 1) = arm ↔ u ∈ Ico (arm * (ε / k)) ((arm + 1) * (ε / k)) := by
  have hkpos : (0 : ℝ) < k := by exact_mod_cast hk
  have hscaled : 0 ≤ u / ε * k := mul_nonneg (div_nonneg hu h0.le) hkpos.le
  have hlt : ⌊u / ε * k⌋₊ < k := by
    rw [Nat.floor_lt hscaled]
    calc u / ε * k < 1 * k := mul_lt_mul_of_pos_right ((div_lt_one h0).mpr hε) hkpos
      _ = k := one_mul _
  have hfloor : min ⌊u / ε * k⌋₊ (k - 1) = ⌊u / ε * k⌋₊ := min_eq_left (by omega)
  have hshare (n : ℝ) : n ≤ u / ε * k ↔ n * (ε / k) ≤ u := by
    rw [div_mul_eq_mul_div, le_div_iff₀ h0, mul_div_assoc', div_le_iff₀ hkpos]
  have hshare' (n : ℝ) : u / ε * k < n ↔ u < n * (ε / k) := by
    rw [div_mul_eq_mul_div, div_lt_iff₀ h0, mul_div_assoc', lt_div_iff₀ hkpos]
  rw [hfloor, Nat.floor_eq_iff hscaled, hshare, hshare', mem_Ico]

theorem share_le (harm : arm < k) : (arm + 1) * (ε / k) ≤ ε := by
  have hkpos : (0 : ℝ) < k := by exact_mod_cast Nat.zero_lt_of_lt harm
  have hle : (arm + 1 : ℝ) ≤ k := by exact_mod_cast harm
  calc (arm + 1) * (ε / k) ≤ k * (ε / k) := mul_le_mul_of_nonneg_right hle (div_pos h0 hkpos).le
    _ = ε := mul_div_cancel₀ ε hkpos.ne'

include h1

/-- The draws of an arm: its share of `[0, ε)`, and the rest for the greedy one. -/
theorem draws_pick (hk : 0 < k) (harm : arm < k) :
    Ico 0 1 ∩ {u | pick ε k greedy u = arm} =
      Ico (arm * (ε / k)) ((arm + 1) * (ε / k)) ∪ if arm = greedy then Ico ε 1 else ∅ := by
  have hkpos : (0 : ℝ) < k := by exact_mod_cast hk
  have hshare : 0 < ε / k := div_pos h0 hkpos
  have hlow : (0 : ℝ) ≤ arm * (ε / k) := mul_nonneg (Nat.cast_nonneg _) hshare.le
  have hhigh := share_le h0 harm
  ext u
  simp only [mem_inter_iff, mem_ofPred_eq, mem_union]
  constructor
  · rintro ⟨⟨hu0, hu1⟩, hpick⟩
    unfold pick at hpick
    split_ifs at hpick with hε
    · exact .inl ((spread_iff h0 hk hu0 hε arm).mp hpick)
    · rw [if_pos hpick.symm]
      exact .inr ⟨not_lt.mp hε, hu1⟩
  · rintro (hu | hu)
    · have hu0 : 0 ≤ u := hlow.trans hu.1
      have hε : u < ε := hu.2.trans_le hhigh
      refine ⟨⟨hu0, hε.trans_le h1⟩, ?_⟩
      rw [pick, if_pos hε]
      exact (spread_iff h0 hk hu0 hε arm).mpr hu
    · split_ifs at hu with hgreedy
      · refine ⟨⟨h0.le.trans hu.1, hu.2⟩, ?_⟩
        rw [pick, if_neg (not_lt.mpr hu.1), hgreedy]
      · exact absurd hu (notMem_empty u)

theorem measurableSet_pick (hk : 0 < k) (harm : arm < k) :
    MeasurableSet (Ico 0 1 ∩ {u | pick ε k greedy u = arm}) := by
  rw [draws_pick h0 h1 hk harm]
  refine measurableSet_Ico.union ?_
  split_ifs
  · exact measurableSet_Ico
  · exact MeasurableSet.empty

theorem prob_pick (hk : 0 < k) (harm : arm < k) :
    prob {u | pick ε k greedy u = arm} = weight ε k greedy arm := by
  have hkpos : (0 : ℝ) < k := by exact_mod_cast hk
  have hshare : 0 < ε / k := div_pos h0 hkpos
  have hhigh := share_le h0 harm
  have hwidth : volume.real (Ico (arm * (ε / k)) ((arm + 1) * (ε / k))) = ε / k := by
    rw [Real.volume_real_Ico_of_le (by nlinarith)]
    ring
  unfold prob weight
  rw [draws_pick h0 h1 hk harm]
  split_ifs
  · have hdisjoint : Disjoint (Ico (arm * (ε / k)) ((arm + 1) * (ε / k))) (Ico ε 1) :=
      disjoint_left.mpr fun u hu hu' => absurd (hu.2.trans_le hhigh) (not_lt.mpr hu'.1)
    rw [measureReal_union hdisjoint measurableSet_Ico measure_Ico_lt_top.ne measure_Ico_lt_top.ne,
      hwidth, Real.volume_real_Ico_of_le h1, add_comm]
  · rw [union_empty, hwidth, zero_add]

/-- The draws that a map of the arms sends to one place weigh as much as the arms there. -/
theorem prob_map_pick (hgreedy : greedy < k) (f : ℕ → α) (place : α) [DecidableEq α] :
    prob {u | f (pick ε k greedy u) = place} =
      ∑ arm ∈ (Finset.range k).filter fun arm => f arm = place, weight ε k greedy arm := by
  have hk : 0 < k := Nat.zero_lt_of_lt hgreedy
  have hunion : Ico 0 1 ∩ {u | f (pick ε k greedy u) = place} =
      ⋃ arm ∈ (Finset.range k).filter fun arm => f arm = place,
        Ico 0 1 ∩ {u | pick ε k greedy u = arm} := by
    ext u
    simp only [mem_inter_iff, mem_ofPred_eq, mem_iUnion, Finset.mem_filter, Finset.mem_range]
    constructor
    · rintro ⟨hu, hplace⟩
      exact ⟨pick ε k greedy u, ⟨pick_lt hgreedy u, hplace⟩, hu, rfl⟩
    · rintro ⟨arm, ⟨-, hplace⟩, hu, rfl⟩
      exact ⟨hu, hplace⟩
  have hlt {arm : ℕ} (harm : arm ∈ (Finset.range k).filter fun arm => f arm = place) : arm < k :=
    Finset.mem_range.mp (Finset.mem_filter.mp harm).1
  unfold prob
  rw [hunion, measureReal_biUnion_finset ?_ ?_ ?_]
  · exact Finset.sum_congr rfl fun arm harm => prob_pick h0 h1 hk (hlt harm)
  · rintro arm - arm' - hne
    exact disjoint_left.mpr fun u hu hu' => hne (hu.2.symm.trans hu'.2)
  · exact fun arm harm => measurableSet_pick h0 h1 hk (hlt harm)
  · exact fun arm _ => ((measure_mono inter_subset_left).trans_lt measure_Ico_lt_top).ne

/-- The weight of an arm is the probability of the place it is sent to exactly if no other
arm is sent there. -/
theorem weight_eq_prob_iff (hgreedy : greedy < k) (f : ℕ → α) [DecidableEq α] (harm : arm < k) :
    weight ε k greedy arm = prob {u | f (pick ε k greedy u) = f arm} ↔
      ∀ other < k, f other = f arm → other = arm := by
  have hk : 0 < k := Nat.zero_lt_of_lt hgreedy
  have hmem : arm ∈ (Finset.range k).filter fun other => f other = f arm :=
    Finset.mem_filter.mpr ⟨Finset.mem_range.mpr harm, rfl⟩
  rw [prob_map_pick h0 h1 hgreedy, ← Finset.add_sum_erase _ _ hmem, left_eq_add,
    Finset.sum_eq_zero_iff_of_nonneg fun other _ => (weight_pos h0 h1 hk other).le]
  constructor
  · intro hzero other hother hplace
    by_contra hne
    refine (weight_pos h0 h1 hk other).ne' (hzero other ?_)
    exact Finset.mem_erase.mpr ⟨hne, Finset.mem_filter.mpr ⟨Finset.mem_range.mpr hother, hplace⟩⟩
  · intro hinj other hother
    obtain ⟨hne, hfilter⟩ := Finset.mem_erase.mp hother
    obtain ⟨hrange, hplace⟩ := Finset.mem_filter.mp hfilter
    exact absurd (hinj other (Finset.mem_range.mp hrange) hplace) hne

end

end EpsilonGreedy
