import Firstpass.Lib.UniformDraw
import Firstpass.Proxy.StartRung

/-!
# The draw of an exploration

The draw is taken from the two halves of a fresh id: each half is mixed, and the leading bits of
their exclusive or are the draw. The first half holds the clock. Whatever it is, every value of
the draw comes from as many second halves as any other; so the propensity that is recorded is
the share of second halves with which the ladder starts where it did, up to what the grid of the
draws leaves over.

The draw is exact: it has 53 bits. A fresh id fixes two bits of its second half; the shares are of
all second halves.
-/

namespace Firstpass.StartRung

open EpsilonGreedy Set UniformDraw

def splitmix64Finalise (z : BitVec 64) : BitVec 64 :=
  let z := z + 0x9E3779B97F4A7C15#64
  let z := (z ^^^ (z >>> 30)) * 0xBF58476D1CE4E5B9#64
  let z := (z ^^^ (z >>> 27)) * 0x94D049BB133111EB#64
  z ^^^ (z >>> 31)

def drawBits (seed : BitVec 128) : BitVec 64 :=
  let lo := splitmix64Finalise (seed.setWidth 64)
  let hi := splitmix64Finalise ((seed >>> 64).setWidth 64)
  (lo ^^^ hi) >>> 11

/-- A draw from `[0, 1)`. -/
def u01 {F : Type} [Field F] (seed : BitVec 128) : F :=
  (drawBits seed).toNat * (1 / (2 ^ 53 : Nat))

theorem splitmix64Finalise_injective : Function.Injective splitmix64Finalise := by
  have hfirst := mul_injective (w := 64) (c := 0xBF58476D1CE4E5B9) (d := 0x96DE1B173F119089) rfl
  have hsecond := mul_injective (w := 64) (c := 0x94D049BB133111EB) (d := 0x319642B2D24D8EC3) rfl
  exact (xorShift_injective (w := 64) (s := 31) (by simp)).comp <|
    hsecond.comp <| (xorShift_injective (w := 64) (s := 27) (by simp)).comp <|
    hfirst.comp <| (xorShift_injective (w := 64) (s := 30) (by simp)).comp <|
    add_injective 0x9E3779B97F4A7C15#64

theorem drawBits_append (hi lo : BitVec 64) :
    drawBits (hi ++ lo) = (splitmix64Finalise lo ^^^ splitmix64Finalise hi) >>> 11 := by
  rw [drawBits, BitVec.setWidth_append_eq_right, BitVec.setWidth_ushiftRight_eq_extractLsb,
    BitVec.extractLsb'_append_eq_left]

/-- The second halves whose draw satisfies `p`: as many for each point of the grid. -/
theorem ncard_u01 (hi : BitVec 64) (p : ℝ → Prop) :
    {lo : BitVec 64 | p (u01 (hi ++ lo))}.ncard =
      2 ^ 11 * {n : ℕ | n < 2 ^ 53 ∧ p (n / (2 ^ 53 : ℕ))}.ncard := by
  have hmixed : Function.Injective fun lo : BitVec 64 =>
      splitmix64Finalise lo ^^^ splitmix64Finalise hi :=
    (xor_injective (w := 64) (splitmix64Finalise hi)).comp splitmix64Finalise_injective
  have hshare := ncard_leading 11 53 hmixed fun n => p (n / (2 ^ 53 : ℕ))
  simpa only [u01, drawBits_append, mul_one_div] using hshare

theorem draw_grid (seed : BitVec 128) :
    ∃ n : Fin (2 ^ 53), u01 seed = (n / (2 ^ 53 : ℕ) : ℝ) := by
  have hlt : (drawBits seed).toNat < 2 ^ 53 := by
    rw [drawBits, BitVec.toNat_ushiftRight, Nat.shiftRight_eq_div_pow]
    exact Nat.div_lt_of_lt_mul (BitVec.isLt _)
  exact ⟨⟨_, hlt⟩, mul_one_div _ _⟩

/-- Whatever the clock says, each of the `2 ^ 53` draws comes from the same number of second
halves, and there are no others. -/
theorem draws_balanced (hi : BitVec 64) :
    (∀ lo : BitVec 64, ∃ n : Fin (2 ^ 53), u01 (hi ++ lo) = (n / (2 ^ 53 : ℕ) : ℝ)) ∧
      ∀ n : Fin (2 ^ 53),
        {lo : BitVec 64 | u01 (hi ++ lo) = (n / (2 ^ 53 : ℕ) : ℝ)}.ncard = 2 ^ 11 := by
  refine ⟨fun lo => draw_grid (hi ++ lo), fun n => ?_⟩
  have hone : {m : ℕ | m < 2 ^ 53 ∧ (m / (2 ^ 53 : ℕ) : ℝ) = n / (2 ^ 53 : ℕ)} = {n.val} := by
    ext m
    simp only [mem_ofPred_eq, mem_singleton_iff]
    constructor
    · rintro ⟨-, heq⟩
      exact_mod_cast (div_left_inj' (by positivity)).mp heq
    · rintro rfl
      exact ⟨n.isLt, rfl⟩
  rw [ncard_u01 hi fun u => u = n / (2 ^ 53 : ℕ), hone, ncard_singleton, mul_one]

theorem ncard_div (hi : BitVec 64) (draws : Set ℝ) :
    ({lo : BitVec 64 | u01 (hi ++ lo) ∈ draws}.ncard / 2 ^ 64 : ℝ) =
      hits (2 ^ 53) draws / (2 ^ 53 : ℕ) := by
  rw [ncard_u01 hi (· ∈ draws), hits, Nat.cast_mul,
    div_eq_div_iff (by positivity) (by positivity)]
  push_cast
  ring

section
variable {ε : ℝ} {k greedy arm : ℕ} (h0 : 0 < ε) (h1 : ε ≤ 1) (harm : arm < k)
include h0 h1 harm

/-- The points of a grid that pick an arm: its share of them and, for the greedy arm, the rest. Each
of the two misses its width by less than a point. -/
theorem abs_hits_pick_sub_lt {N : ℕ} (hN : 0 < N) :
    |(hits N (Ico 0 1 ∩ {u | pick ε k greedy u = arm}) : ℝ) - weight ε k greedy arm * N| < 2 := by
  have hk : 0 < k := Nat.zero_lt_of_lt harm
  have hwidth : 0 < ε / k := div_pos h0 (by exact_mod_cast hk)
  have hhigh := share_le h0 harm
  have hspread := abs_hits_Ico_sub_lt hN (mul_nonneg (Nat.cast_nonneg arm) hwidth.le)
    (mul_le_mul_of_nonneg_right (by linarith) hwidth.le) (hhigh.trans h1)
  rw [add_mul, one_mul, add_sub_cancel_left] at hspread
  rw [draws_pick h0 h1 hk harm, weight]
  split_ifs
  · have hrest := abs_hits_Ico_sub_lt hN h0.le h1 le_rfl
    have hdisjoint : ∀ u ∈ Ico (arm * (ε / k)) ((arm + 1) * (ε / k)), u ∉ Ico ε 1 :=
      fun u hu hu' => absurd (hu.2.trans_le hhigh) (not_lt.mpr hu'.1)
    rw [add_mul, one_mul] at hdisjoint
    rw [add_mul (arm : ℝ), one_mul, hits_union hdisjoint, Nat.cast_add, add_mul]
    rw [abs_lt] at hspread hrest ⊢
    constructor
    · linarith
    · linarith
  · rw [union_empty, zero_add, add_mul (arm : ℝ), one_mul]
    exact hspread.trans one_lt_two

theorem share_pick (hi : BitVec 64) :
    |({lo : BitVec 64 | pick ε k greedy (u01 (hi ++ lo)) = arm}.ncard / 2 ^ 64 : ℝ) -
      weight ε k greedy arm| < 2 / (2 ^ 53 : ℕ) := by
  have hunit (lo : BitVec 64) : (u01 (hi ++ lo) : ℝ) ∈ Ico 0 1 := by
    obtain ⟨n, hn⟩ := draw_grid (hi ++ lo)
    rw [hn, mem_Ico, div_lt_one (by positivity)]
    exact ⟨by positivity, by exact_mod_cast n.isLt⟩
  have hdraws : {lo : BitVec 64 | pick ε k greedy (u01 (hi ++ lo)) = arm} =
      {lo | u01 (hi ++ lo) ∈ Ico 0 1 ∩ {u | pick ε k greedy u = arm}} := by
    ext lo
    exact (and_iff_right (hunit lo)).symm
  have hpos : (0 : ℝ) < (2 ^ 53 : ℕ) := by positivity
  rw [hdraws, ncard_div, div_sub' hpos.ne', abs_div, abs_of_pos hpos,
    div_lt_div_iff_of_pos_right hpos, mul_comm]
  exact abs_hits_pick_sub_lt h0 h1 harm (by positivity)

end

end Firstpass.StartRung
