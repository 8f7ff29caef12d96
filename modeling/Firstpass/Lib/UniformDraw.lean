import Mathlib.Algebra.Order.Archimedean.Real.Basic
import Mathlib.Data.BitVec
import Mathlib.Data.FinEnum
import Mathlib.Data.Set.Card
import Mathlib.Logic.Equiv.Fin.Basic
import Mathlib.Order.Interval.Finset.Nat
import Mathlib.Tactic.Linarith

/-!
# Draws from the bits of a word

The steps of a mixing function lose no bit of the word: the exclusive or with a shift of itself,
and the product with an odd constant. The leading bits of a word that ranges over all words are
uniform, so a draw that divides them by their number falls in an interval as often as the interval
is wide, up to one point of the grid.
-/

namespace UniformDraw

open Set

variable {w : ℕ}

-- ---------------------------------------------------------------------------
-- The steps of a mixing function
-- ---------------------------------------------------------------------------

/-- The top bits are shown as they are, and each bit is hidden by a higher one. -/
theorem xorShift_injective {s : ℕ} (hs : 0 < s) :
    Function.Injective fun x : BitVec w => x ^^^ (x >>> s) := by
  intro x y h
  have hbits (n : ℕ) : ∀ i, w ≤ i + n → x.getLsbD i = y.getLsbD i := by
    induction n with
    | zero =>
      intro i hi
      rw [BitVec.getLsbD_of_ge x i hi, BitVec.getLsbD_of_ge y i hi]
    | succ n ih =>
      intro i hi
      have hbit := congrArg (fun z : BitVec w => z.getLsbD i) h
      simp only [BitVec.getLsbD_xor, BitVec.getLsbD_ushiftRight] at hbit
      rw [ih (s + i) (by omega)] at hbit
      simpa using hbit
  exact BitVec.eq_of_getLsbD_eq fun i _ => hbits w i (by omega)

theorem mul_injective {c d : BitVec w} (h : c * d = 1#w) :
    Function.Injective fun x : BitVec w => x * c := by
  refine Function.LeftInverse.injective (g := fun y => y * d) fun x => ?_
  simp only [BitVec.mul_assoc, h, BitVec.mul_one]

theorem add_injective (c : BitVec w) : Function.Injective fun x : BitVec w => x + c :=
  fun _ _ h => (BitVec.add_left_inj c).mp h

theorem xor_injective (c : BitVec w) : Function.Injective fun x : BitVec w => x ^^^ c :=
  fun _ _ h => BitVec.xor_left_inj c |>.mp h

-- ---------------------------------------------------------------------------
-- Leading bits
-- ---------------------------------------------------------------------------

/-- A word is its leading bits and the rest. -/
def leading (a b : ℕ) : BitVec (b + a) ≃ Fin (2 ^ b) × Fin (2 ^ a) :=
  BitVec.equivFin.toEquiv.trans ((finCongr (pow_add 2 b a)).trans finProdFinEquiv.symm)

theorem leading_fst (a b : ℕ) (x : BitVec (b + a)) :
    ((leading a b x).1 : ℕ) = (x >>> a).toNat := by
  rw [BitVec.toNat_ushiftRight, Nat.shiftRight_eq_div_pow]
  rfl

/-- Each value of the leading bits stands in front of as many words, mixed or not. -/
theorem ncard_leading (a b : ℕ) {f : BitVec (b + a) → BitVec (b + a)} (hf : Function.Injective f)
    (p : ℕ → Prop) :
    {x | p (f x >>> a).toNat}.ncard = 2 ^ a * {n | n < 2 ^ b ∧ p n}.ncard := by
  let e := (Equiv.ofBijective f (Finite.injective_iff_bijective.mp hf)).trans (leading a b)
  have himage : e '' {x | p (f x >>> a).toNat} = {n : Fin (2 ^ b) | p n} ×ˢ univ := by
    ext y
    obtain ⟨x, rfl⟩ := e.surjective y
    have hfst : ((e x).1 : ℕ) = (f x >>> a).toNat := leading_fst a b (f x)
    rw [e.injective.mem_set_image, mem_prod, mem_ofPred_eq, mem_ofPred_eq, hfst]
    exact (and_iff_left (mem_univ _)).symm
  have hvalues : Fin.val '' {n : Fin (2 ^ b) | p n} = {n | n < 2 ^ b ∧ p n} := by
    ext n
    constructor
    · rintro ⟨n, hn, rfl⟩
      exact ⟨n.isLt, hn⟩
    · rintro ⟨hlt, hn⟩
      exact ⟨⟨n, hlt⟩, hn, rfl⟩
  rw [← ncard_image_of_injective _ e.injective, himage, ncard_prod, ncard_univ,
    Nat.card_eq_fintype_card, Fintype.card_fin, ← hvalues,
    ncard_image_of_injective _ Fin.val_injective, mul_comm]

-- ---------------------------------------------------------------------------
-- The grid of the draws
-- ---------------------------------------------------------------------------

/-- The draws of the grid with `N` points that fall in `s`. -/
noncomputable def hits (N : ℕ) (s : Set ℝ) : ℕ := {n : ℕ | n < N ∧ (n / N : ℝ) ∈ s}.ncard

theorem hits_Ico {N : ℕ} (hN : 0 < N) {a b : ℝ} (hb : b ≤ 1) :
    hits N (Ico a b) = ⌈b * N⌉₊ - ⌈a * N⌉₊ := by
  have hpos : (0 : ℝ) < N := by exact_mod_cast hN
  have hgrid : {n : ℕ | n < N ∧ (n / N : ℝ) ∈ Ico a b} = Finset.Ico ⌈a * N⌉₊ ⌈b * N⌉₊ := by
    ext n
    simp only [mem_ofPred_eq, mem_Ico, Finset.coe_Ico, Nat.ceil_le, Nat.lt_ceil,
      le_div_iff₀ hpos, div_lt_iff₀ hpos, and_iff_right_iff_imp]
    rintro ⟨-, hlt⟩
    have hle : b * N ≤ N := mul_le_of_le_one_left hpos.le hb
    exact_mod_cast hlt.trans_le hle
  rw [hits, hgrid, ncard_coe_finset, Nat.card_Ico]

/-- The share of the grid in an interval is its width, up to one point. -/
theorem abs_hits_Ico_sub_lt {N : ℕ} (hN : 0 < N) {a b : ℝ} (ha : 0 ≤ a) (hab : a ≤ b)
    (hb : b ≤ 1) : |(hits N (Ico a b) : ℝ) - (b - a) * N| < 1 := by
  have hpos : (0 : ℝ) < N := by exact_mod_cast hN
  have hscaled : a * N ≤ b * N := mul_le_mul_of_nonneg_right hab hpos.le
  have hlow : 0 ≤ a * N := mul_nonneg ha hpos.le
  have hhigh : 0 ≤ b * N := hlow.trans hscaled
  rw [hits_Ico hN hb, Nat.cast_sub (Nat.ceil_le_ceil hscaled), sub_mul, abs_lt]
  have ha₁ := Nat.le_ceil (a * N)
  have ha₂ := Nat.ceil_lt_add_one hlow
  have hb₁ := Nat.le_ceil (b * N)
  have hb₂ := Nat.ceil_lt_add_one hhigh
  constructor
  · linarith
  · linarith

theorem hits_union {N : ℕ} {s t : Set ℝ} (h : ∀ u ∈ s, u ∉ t) :
    hits N (s ∪ t) = hits N s + hits N t := by
  have hfinite (u : Set ℝ) : {n : ℕ | n < N ∧ (n / N : ℝ) ∈ u}.Finite :=
    (finite_lt_nat N).subset fun _ hn => hn.1
  rw [hits, hits, hits, ← ncard_union_eq ?_ (hfinite s) (hfinite t)]
  · congr 1
    ext n
    simp only [mem_ofPred_eq, mem_union]
    exact and_or_left
  · exact disjoint_left.mpr fun n hs ht => h _ hs.2 ht.2

end UniformDraw
