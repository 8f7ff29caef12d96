import Mathlib.Algebra.BigOperators.Intervals
import Mathlib.Algebra.Order.Field.Basic
import Mathlib.Data.Nat.Choose.Sum
import Mathlib.Tactic.Linarith
import Mathlib.Tactic.LinearCombination
import Mathlib.Tactic.Ring

/-!
# Sums of independent trials

`mean ps h k` is the mean of `h` at `k` plus the number of successes of
independent trials with the probabilities `ps`. Trials that succeed more often
than `α` make a test of size `δ` against `α` accept less often, and pooling them
with trials that succeed less often makes it accept more often.
-/

namespace Firstpass.Trials

variable {F : Type*} [Field F]

-- ---------------------------------------------------------------------------
-- Means
-- ---------------------------------------------------------------------------

def step (p : F) (h : ℕ → F) (k : ℕ) : F := (1 - p) * h k + p * h (k + 1)

def mean : List F → (ℕ → F) → ℕ → F
  | [], h => h
  | p :: ps, h => step p (mean ps h)

theorem step_comm (p q : F) (h : ℕ → F) : step p (step q h) = step q (step p h) := by
  funext k
  simp only [step]
  ring

theorem mean_step (ps : List F) (q : F) (h : ℕ → F) :
    mean ps (step q h) = step q (mean ps h) := by
  induction ps with
  | nil => rfl
  | cons p ps ih => rw [mean, ih, step_comm, mean]

theorem mean_append (ps qs : List F) (h : ℕ → F) : mean (ps ++ qs) h = mean ps (mean qs h) := by
  induction ps with
  | nil => rfl
  | cons p ps ih => rw [List.cons_append, mean, ih, mean]

theorem mean_perm {ps qs : List F} (hperm : ps.Perm qs) (h : ℕ → F) : mean ps h = mean qs h := by
  induction hperm with
  | nil => rfl
  | cons p _ ih => rw [mean, ih, mean]
  | swap p q ps => rw [mean, mean, step_comm, mean, mean]
  | trans _ _ ih ih' => exact ih.trans ih'

theorem mean_replicate_succ (n : ℕ) (p : F) (h : ℕ → F) :
    mean (List.replicate (n + 1) p) h = mean (List.replicate n p) (step p h) := by
  rw [List.replicate_succ, mean, mean_step]

theorem mean_sub (ps : List F) (f g : ℕ → F) (k : ℕ) :
    mean ps (fun i => f i - g i) k = mean ps f k - mean ps g k := by
  induction ps generalizing k with
  | nil => rfl
  | cons p ps ih =>
    simp only [mean, step, ih]
    ring

theorem mean_mul_left (ps : List F) (c : F) (f : ℕ → F) (k : ℕ) :
    mean ps (fun i => c * f i) k = c * mean ps f k := by
  induction ps generalizing k with
  | nil => rfl
  | cons p ps ih =>
    simp only [mean, step, ih]
    ring

theorem mean_add (ps : List F) (f g : ℕ → F) (k : ℕ) :
    mean ps (fun i => f i + g i) k = mean ps f k + mean ps g k := by
  induction ps generalizing k with
  | nil => rfl
  | cons p ps ih =>
    simp only [mean, step, ih]
    ring

@[simp] theorem mean_const (ps : List F) (c : F) : mean ps (fun _ => c) = fun _ => c := by
  induction ps with
  | nil => rfl
  | cons p ps ih =>
    rw [mean, ih]
    funext k
    simp only [step]
    ring

theorem mean_shift (ps : List F) (h : ℕ → F) (d k : ℕ) :
    mean ps (fun i => h (i + d)) k = mean ps h (k + d) := by
  induction ps generalizing k with
  | nil => rfl
  | cons p ps ih => rw [mean, mean, step, step, ih, ih, Nat.add_right_comm]

/-- What is beyond the reach of the trials does not matter. -/
theorem mean_congr (ps : List F) {f g : ℕ → F} {k : ℕ}
    (h : ∀ i, k ≤ i → i ≤ k + ps.length → f i = g i) : mean ps f k = mean ps g k := by
  induction ps generalizing k with
  | nil => exact h k le_rfl le_rfl
  | cons p ps ih =>
    rw [List.length_cons] at h
    have hfail := ih fun i hi hle => h i hi (by omega)
    have hsuccess := ih fun i (hi : k + 1 ≤ i) hle => h i (by omega) (by omega)
    rw [mean, mean, step, step, hfail, hsuccess]

/-- With equal probabilities the number of successes is binomial. -/
theorem mean_replicate (n : ℕ) (p : F) (h : ℕ → F) (k : ℕ) :
    mean (List.replicate n p) h k =
      ∑ i ∈ Finset.range (n + 1), (n.choose i : F) * p ^ i * (1 - p) ^ (n - i) * h (k + i) := by
  induction n generalizing k with
  | zero => simp [mean]
  | succ n ih =>
    -- Pascal's rule splits each term into one for the first trial's failure and one for its success.
    let term : ℕ → F := fun i => (n.choose i : F) * p ^ i * (1 - p) ^ (n + 1 - i) * h (k + i)
    have hfail : (1 - p) * mean (List.replicate n p) h k =
        ∑ i ∈ Finset.range (n + 1), term (i + 1) + term 0 := by
      rw [ih, Finset.mul_sum, ← Finset.sum_range_succ' term, Finset.sum_range_succ term]
      have hlast : term (n + 1) = 0 := by simp [term]
      rw [hlast, add_zero]
      apply Finset.sum_congr rfl
      intro i hi
      have hpow : n + 1 - i = n - i + 1 := by
        have := Finset.mem_range.mp hi
        omega
      simp only [term, hpow, pow_succ]
      ring
    have hsuccess : p * mean (List.replicate n p) h (k + 1) = ∑ i ∈ Finset.range (n + 1),
        (n.choose i : F) * p ^ (i + 1) * (1 - p) ^ (n - i) * h (k + (i + 1)) := by
      rw [ih, Finset.mul_sum]
      apply Finset.sum_congr rfl
      rintro i -
      rw [pow_succ, Nat.add_right_comm k 1 i, ← Nat.add_assoc]
      ring
    rw [List.replicate_succ, mean, step, hfail, hsuccess, Finset.sum_range_succ' _ (n + 1),
      add_right_comm, ← Finset.sum_add_distrib]
    simp only [term, Nat.choose_succ_succ, Nat.succ_eq_add_one, Nat.cast_add, Nat.choose_zero_right,
      Nat.add_sub_add_right, add_mul, pow_zero, Nat.cast_one, Nat.sub_zero, Nat.add_zero]
    congr 1
    exact Finset.sum_congr rfl fun i _ => add_comm _ _

/-- The probability of at most `k` successes in `n` trials. -/
def tail (n : ℕ) (α : F) (k : ℕ) : F :=
  mean (List.replicate n α) (fun i => if i ≤ k then 1 else 0) 0

theorem tail_eq_one {α : F} (h : n ≤ k) : tail n α k = 1 := by
  have hall : mean (List.replicate n α) (fun i => if i ≤ k then (1 : F) else 0) 0 =
      mean (List.replicate n α) (fun _ => 1) 0 := by
    apply mean_congr
    intro i _ hi
    rw [List.length_replicate] at hi
    exact if_pos (by omega)
  rw [tail, hall, mean_const]

section
variable [LinearOrder F] [IsStrictOrderedRing F] {α δ : F}

def IsProb (p : F) : Prop := 0 ≤ p ∧ p ≤ 1

theorem step_mono {p : F} (hp : IsProb p) {f g : ℕ → F} (h : ∀ k, f k ≤ g k) (k : ℕ) :
    step p f k ≤ step p g k :=
  add_le_add (mul_le_mul_of_nonneg_left (h k) (sub_nonneg.mpr hp.2))
    (mul_le_mul_of_nonneg_left (h (k + 1)) hp.1)

theorem mean_mono {ps : List F} (hps : ∀ p ∈ ps, IsProb p) {f g : ℕ → F} (h : ∀ k, f k ≤ g k)
    (k : ℕ) : mean ps f k ≤ mean ps g k := by
  induction ps generalizing k with
  | nil => exact h k
  | cons p ps ih =>
    obtain ⟨hp, hps⟩ := List.forall_mem_cons.mp hps
    exact step_mono hp (ih hps) k

theorem mean_antitone {ps : List F} (hps : ∀ p ∈ ps, IsProb p) {h : ℕ → F} (hh : Antitone h) :
    Antitone (mean ps h) := by
  induction ps with
  | nil => exact hh
  | cons p ps ih =>
    obtain ⟨hp, hps⟩ := List.forall_mem_cons.mp hps
    intro i j hij
    exact add_le_add (mul_le_mul_of_nonneg_left (ih hps hij) (sub_nonneg.mpr hp.2))
      (mul_le_mul_of_nonneg_left (ih hps (Nat.succ_le_succ hij)) hp.1)

theorem step_le_step {p q : F} (hpq : p ≤ q) {h : ℕ → F} (hh : Antitone h) (k : ℕ) :
    step q h k ≤ step p h k := by
  have hgap : 0 ≤ (q - p) * (h k - h (k + 1)) :=
    mul_nonneg (sub_nonneg.mpr hpq) (sub_nonneg.mpr (hh k.le_succ))
  simp only [step]
  linarith

/-- Trials that succeed at most with probability `α` leave a falling payoff
higher than trials that succeed with `α`. -/
theorem mean_replicate_le (hα : IsProb α) {ps : List F} (hps : ∀ p ∈ ps, IsProb p ∧ p ≤ α)
    {h : ℕ → F} (hh : Antitone h) (k : ℕ) :
    mean (List.replicate ps.length α) h k ≤ mean ps h k := by
  induction ps generalizing k with
  | nil => exact le_rfl
  | cons p ps ih =>
    obtain ⟨⟨hp, hle⟩, hps⟩ := List.forall_mem_cons.mp hps
    have hanti := mean_antitone (fun q hq => (hps q hq).1) hh
    exact (step_mono hα (ih hps) k).trans (step_le_step hle hanti k)

theorem mean_le_replicate (hα : IsProb α) {ps : List F} (hps : ∀ p ∈ ps, IsProb p ∧ α ≤ p)
    {h : ℕ → F} (hh : Antitone h) (k : ℕ) :
    mean ps h k ≤ mean (List.replicate ps.length α) h k := by
  induction ps generalizing k with
  | nil => exact le_rfl
  | cons p ps ih =>
    obtain ⟨⟨hp, hle⟩, hps⟩ := List.forall_mem_cons.mp hps
    have hanti := mean_antitone (fun q hq => (hps q hq).1) hh
    exact (step_le_step hle hanti k).trans (step_mono hα (ih hps) k)

-- ---------------------------------------------------------------------------
-- One change of sign
-- ---------------------------------------------------------------------------

/-- The payoff changes its sign at most once, and from plus to minus. -/
def Crosses (h : ℕ → F) : Prop := ∀ i j, i < j → 0 < h j → 0 ≤ h i

theorem Crosses.step {h : ℕ → F} (hh : Crosses h) {p : F} (hp : IsProb p) :
    Crosses (Trials.step p h) := by
  intro i j hij hpos
  have hq : 0 ≤ 1 - p := sub_nonneg.mpr hp.2
  have hlater : 0 < h j ∨ 0 < h (j + 1) := by
    by_contra hnone
    obtain ⟨hj, hj1⟩ := not_or.mp hnone
    exact hpos.not_ge (add_nonpos (mul_nonpos_of_nonneg_of_nonpos hq (not_lt.mp hj))
      (mul_nonpos_of_nonneg_of_nonpos hp.1 (not_lt.mp hj1)))
  have hbefore : ∀ m, m ≤ j → 0 ≤ h m := by
    intro m hm
    rcases hlater with hj | hj1
    · rcases hm.eq_or_lt with rfl | hlt
      · exact hj.le
      · exact hh m j hlt hj
    · exact hh m (j + 1) (Nat.lt_succ_of_le hm) hj1
  exact add_nonneg (mul_nonneg hq (hbefore i hij.le)) (mul_nonneg hp.1 (hbefore (i + 1) hij))

theorem Crosses.mean {h : ℕ → F} (hh : Crosses h) {ps : List F} (hps : ∀ p ∈ ps, IsProb p) :
    Crosses (mean ps h) := by
  induction ps with
  | nil => exact hh
  | cons p ps ih =>
    obtain ⟨hp, hps⟩ := List.forall_mem_cons.mp hps
    exact (ih hps).step hp

/-- What averages to at most zero under `α` does so under likelier successes,
which weigh the negative end more. -/
theorem Crosses.mean_nonpos (hα : 0 < α) (hα1 : α ≤ 1) {ps : List F}
    (hps : ∀ p ∈ ps, IsProb p ∧ α ≤ p) {h : ℕ → F} (hh : Crosses h)
    (hle : Trials.mean (List.replicate ps.length α) h 0 ≤ 0) : Trials.mean ps h 0 ≤ 0 := by
  induction ps generalizing h with
  | nil => exact hle
  | cons p ps ih =>
    obtain ⟨⟨hp, hαp⟩, hps⟩ := List.forall_mem_cons.mp hps
    rw [List.length_cons, mean_replicate_succ] at hle
    have hpooled := ih hps (hh.step ⟨hα.le, hα1⟩) hle
    rw [mean_step] at hpooled
    have hcross := hh.mean fun q hq => (hps q hq).1
    have hq : 0 ≤ 1 - α := sub_nonneg.mpr hα1
    change (1 - α) * Trials.mean ps h 0 + α * Trials.mean ps h 1 ≤ 0 at hpooled
    change (1 - p) * Trials.mean ps h 0 + p * Trials.mean ps h 1 ≤ 0
    have hafter : Trials.mean ps h 1 ≤ 0 := by
      by_contra hpos
      have hzero := hcross 0 1 Nat.one_pos (not_le.mp hpos)
      have hsum := add_pos_of_nonneg_of_pos (mul_nonneg hq hzero) (mul_pos hα (not_le.mp hpos))
      exact hpooled.not_gt hsum
    rcases le_total (Trials.mean ps h 0) 0 with hneg | hnonneg
    · exact add_nonpos (mul_nonpos_of_nonneg_of_nonpos (sub_nonneg.mpr hp.2) hneg)
        (mul_nonpos_of_nonneg_of_nonpos hp.1 hafter)
    · have hgap : 0 ≤ (p - α) * (Trials.mean ps h 0 - Trials.mean ps h 1) :=
        mul_nonneg (sub_nonneg.mpr hαp) (sub_nonneg.mpr (hafter.trans hnonneg))
      linarith

-- ---------------------------------------------------------------------------
-- Tests
-- ---------------------------------------------------------------------------

/-- A randomized test of `n` trials of probability `α`: it rejects with
probability `δ` when that is the probability, and rejects few successes first. -/
structure Test (n : ℕ) (α δ : F) where
  reject : ℕ → F
  nonneg : ∀ k, 0 ≤ reject k
  le_one : ∀ k, reject k ≤ 1
  cut : ∀ i j, i < j → 0 < reject j → reject i = 1
  size : mean (List.replicate n α) reject 0 = δ

omit [IsStrictOrderedRing F] in
theorem Test.antitone (t : Test n α δ) : Antitone t.reject := by
  intro i j hij
  rcases (t.nonneg j).eq_or_lt with hzero | hpos
  · rw [← hzero]
    exact t.nonneg i
  · rcases hij.eq_or_lt with rfl | hlt
    · exact le_rfl
    · rw [t.cut i j hlt hpos]
      exact t.le_one j

/-- Likelier successes are rejected at most as often as the test's size. -/
theorem Test.mean_le (t : Test n α δ) (hα : IsProb α) {ps : List F} (hlength : ps.length = n)
    (hps : ∀ p ∈ ps, IsProb p ∧ α ≤ p) : mean ps t.reject 0 ≤ δ := by
  have hle := mean_le_replicate hα hps t.antitone 0
  rwa [hlength, t.size] at hle

/-- A test of likelier successes rejects less often than a test that also has
trials that succeed less often. -/
theorem Test.mean_le_pooled (t : Test n α δ) (t' : Test l α δ) (hα : 0 < α) (hα1 : α ≤ 1)
    {ps qs : List F} (hlength : ps.length = n) (hlength' : n + qs.length = l)
    (hps : ∀ p ∈ ps, IsProb p ∧ α ≤ p) (hqs : ∀ q ∈ qs, IsProb q ∧ q ≤ α) :
    mean ps t.reject 0 ≤ mean (ps ++ qs) t'.reject 0 := by
  have hprob : IsProb α := ⟨hα.le, hα1⟩
  have hreplicate : ∀ p ∈ List.replicate qs.length α, IsProb p := by
    intro p hp
    rw [List.eq_of_mem_replicate hp]
    exact hprob
  let pooled : ℕ → F := mean (List.replicate qs.length α) t'.reject
  have hpooled : ∀ k, IsProb (pooled k) := by
    intro k
    have hlow := mean_mono hreplicate t'.nonneg k
    have hhigh := mean_mono hreplicate t'.le_one k
    rw [mean_const] at hlow hhigh
    exact ⟨hlow, hhigh⟩
  have hcross : Crosses fun k => t.reject k - pooled k := by
    intro i j hij hpos
    have hreject := (hpooled j).1.trans_lt (sub_pos.mp hpos)
    change 0 ≤ t.reject i - pooled i
    rw [t.cut i j hij hreject]
    exact sub_nonneg.mpr (hpooled i).2
  have hzero : mean (List.replicate ps.length α) (fun k => t.reject k - pooled k) 0 ≤ 0 := by
    have hsize : mean (List.replicate n α) pooled 0 = δ := by
      rw [← mean_append, List.replicate_append_replicate, hlength', t'.size]
    rw [mean_sub, hlength, t.size, hsize, sub_self]
  have hdiff := hcross.mean_nonpos hα hα1 hps hzero
  rw [mean_sub, sub_nonpos] at hdiff
  have hweaker : ∀ k, pooled k ≤ mean qs t'.reject k := mean_replicate_le hprob hqs t'.antitone
  rw [mean_append]
  exact hdiff.trans (mean_mono (fun p hp => (hps p hp).1) hweaker 0)

theorem tail_mono (n : ℕ) (hα : IsProb α) : Monotone (tail n α) := by
  intro k k' hk
  apply mean_mono
  · intro p hp
    rwa [List.eq_of_mem_replicate hp]
  · intro i
    split_ifs with hi hi'
    · exact le_rfl
    · exact absurd (hi.trans hk) hi'
    · exact zero_le_one
    · exact le_rfl

/-- For every size there is a test that surely rejects what is that unlikely. -/
theorem exists_test (n : ℕ) (hα : IsProb α) (hδ : 0 < δ) (hδ1 : δ < 1) :
    ∃ t : Test n α δ, ∀ k, tail n α k ≤ δ → t.reject k = 1 := by
  have hreach : ∃ k, δ < tail n α k := ⟨n, by rwa [tail_eq_one le_rfl]⟩
  let c := Nat.find hreach
  have hc : δ < tail n α c := Nat.find_spec hreach
  have hbelow : ∀ k, k < c → tail n α k ≤ δ := fun k hk => not_lt.mp (Nat.find_min hreach hk)
  -- The probability of fewer than `c` successes.
  let under : F := mean (List.replicate n α) (fun i => if i < c then 1 else 0) 0
  have hunder : under ≤ δ := by
    cases hcase : c with
    | zero =>
      have hzero : under = mean (List.replicate n α) (fun _ => 0) 0 := by
        simp only [under, hcase, Nat.not_lt_zero, if_false]
      rw [hzero, mean_const]
      exact hδ.le
    | succ k =>
      have hpred : under = tail n α k := by
        simp only [under, hcase, Nat.lt_succ_iff, tail]
      rw [hpred]
      exact hbelow k (hcase ▸ Nat.lt_succ_self k)
  have hgap : 0 < tail n α c - under := sub_pos.mpr (hunder.trans_lt hc)
  let γ : F := (δ - under) / (tail n α c - under)
  have hγ : IsProb γ := by
    refine ⟨div_nonneg (sub_nonneg.mpr hunder) hgap.le, ?_⟩
    rw [div_le_one hgap]
    exact sub_le_sub_right hc.le under
  let reject : ℕ → F := fun i => (1 - γ) * (if i < c then 1 else 0) + γ * if i ≤ c then 1 else 0
  have hone : ∀ i, i < c → reject i = 1 := by
    intro i hi
    simp only [reject, if_pos hi, if_pos hi.le]
    ring
  have hlast : reject c = γ := by
    simp only [reject, lt_irrefl, if_false, le_refl, if_true]
    ring
  have hnone : ∀ i, c < i → reject i = 0 := by
    intro i hi
    simp only [reject, if_neg hi.not_gt, if_neg hi.not_ge]
    ring
  have hprob : ∀ i, IsProb (reject i) := by
    intro i
    rcases lt_trichotomy i c with hi | rfl | hi
    · rw [hone i hi]
      exact ⟨zero_le_one, le_rfl⟩
    · rwa [hlast]
    · rw [hnone i hi]
      exact ⟨le_rfl, zero_le_one⟩
  refine ⟨⟨reject, fun k => (hprob k).1, fun k => (hprob k).2, ?_, ?_⟩, ?_⟩
  · intro i j hij hpos
    apply hone
    by_contra hi
    exact hpos.ne' (hnone j ((not_lt.mp hi).trans_lt hij))
  · have hmean : mean (List.replicate n α) reject 0 = (1 - γ) * under + γ * tail n α c := by
      rw [mean_add, mean_mul_left, mean_mul_left, tail]
    have hmul : γ * (tail n α c - under) = δ - under := div_mul_cancel₀ _ hgap.ne'
    rw [hmean]
    linear_combination hmul
  · intro k hk
    apply hone
    by_contra hle
    exact hk.not_gt (hc.trans_le (tail_mono n hα (not_lt.mp hle)))

end

end Firstpass.Trials
