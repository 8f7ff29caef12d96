import Firstpass.Core.SelectRuns

/-!
# The two conclusions exclude each other

The two sides of the test bet on opposite gains. One of them has a total gain of
at most zero, and none of its bets has won anything then.
-/

namespace Firstpass.Select

open EProcess

-- ---------------------------------------------------------------------------
-- The gains behind the wealth
-- ---------------------------------------------------------------------------

/-- The gains of a side on the differences `ds`. -/
noncomputable def gains (margin : ℝ) (side : Side) (ds : List ℝ) : List ℝ :=
  ds.map fun d => side.sign * (d - margin)

/-- The experiment has bet on the differences `ds` of pairs in range. -/
structure BetOn (margin alpha : ℝ) (ds : List ℝ) (e : Experiment ℝ) : Prop where
  margin_eq : e.margin = margin
  alpha_eq : e.alpha = alpha
  range : ∀ d ∈ ds, ∃ x y, inUnit x ∧ inUnit y ∧ d = x - y
  wealth : ∀ side, HasWealth (e.mixture side) margin side.sign
    fun lambda => betWealth lambda (gains margin side ds)

theorem betOn_new {margin alpha : ℝ} (he : Experiment.new display margin alpha = .ok e) :
    BetOn margin alpha [] e := by
  obtain ⟨_, _, _, _, hm, ha, _, hmixture⟩ := new_ok he
  refine ⟨hm, ha, nofun, fun side => ?_⟩
  rw [hmixture side]
  exact hasWealth_new margin side.sign

theorem betWealth_append (l : ℝ) (xs : List ℝ) (x : ℝ) :
    betWealth l (xs ++ [x]) = betWealth l xs * (1 + l * x) := by
  simp [betWealth]

theorem mixture_closePair (e : Experiment ℝ) (x y : ℝ) (side : Side) :
    (e.closePair x y).mixture side = if e.status = .undecided
      then (e.mixture side).step (x - y) e.margin else e.mixture side := by
  simp only [Experiment.closePair]
  cases side <;> split_ifs <;> rfl

theorem BetOn.closePair {ds : List ℝ} (h : BetOn margin alpha ds e) (hx : inUnit x)
    (hy : inUnit y) : ∃ ds, BetOn margin alpha ds (e.closePair x y) := by
  have hfields : (e.closePair x y).margin = e.margin ∧ (e.closePair x y).alpha = e.alpha := by
    simp only [Experiment.closePair]
    split_ifs <;> exact ⟨rfl, rfl⟩
  by_cases hopen : e.status = .undecided
  · refine ⟨ds ++ [x - y], hfields.1.trans h.margin_eq, hfields.2.trans h.alpha_eq, ?_, ?_⟩
    · intro d hd
      rcases List.mem_append.mp hd with hd | hd
      · exact h.range d hd
      · exact ⟨x, y, hx, hy, List.mem_singleton.mp hd⟩
    · intro side
      have hstep := hasWealth_step (h.wealth side) (x - y)
      rw [mixture_closePair, if_pos hopen, h.margin_eq]
      simpa only [gains, List.map_append, List.map_cons, List.map_nil, betWealth_append] using hstep
  · refine ⟨ds, hfields.1.trans h.margin_eq, hfields.2.trans h.alpha_eq, h.range, fun side => ?_⟩
    rw [mixture_closePair, if_neg hopen]
    exact h.wealth side

theorem BetOn.closeAll {ds : List ℝ} (h : BetOn margin alpha ds e) {ps : List (ℝ × ℝ)}
    (hps : ∀ p ∈ ps, inUnit p.1 ∧ inUnit p.2) : ∃ ds, BetOn margin alpha ds (e.closeAll ps) := by
  induction ps generalizing e ds with
  | nil => exact ⟨ds, h⟩
  | cons p ps ih =>
    obtain ⟨hx, hy⟩ := hps p List.mem_cons_self
    obtain ⟨ds, hp⟩ := h.closePair hx hy
    exact ih hp fun q hq => hps q (List.mem_cons_of_mem p hq)

theorem BetOn.closes {ds : List ℝ} (h : BetOn margin alpha ds e) {ps : List (ℝ × ℝ)}
    (hcloses : Closes e ps e') (hps : ∀ p ∈ ps, inUnit p.1 ∧ inUnit p.2) :
    ∃ ds, BetOn margin alpha ds e' := by
  obtain ⟨ds, hall⟩ := h.closeAll hps
  cases hcloses with
  | intro incs chs inc ch =>
    refine ⟨ds, hall.margin_eq, hall.alpha_eq, hall.range, fun side => ?_⟩
    cases side with
    | certify => exact hall.wealth .certify
    | halt => exact hall.wealth .halt

/-- What every run preserves: the wealth is that of bets on pairs in range. -/
theorem betOn_run {margin alpha : ℝ} (he : Experiment.new display margin alpha = .ok e)
    (calls : List (Call ℝ)) :
    (∃ ds, BetOn margin alpha ds (e.run calls)) ∧ (e.run calls).QueuesOk := by
  induction calls using List.reverseRec with
  | nil =>
    obtain ⟨_, hinc, hch⟩ := new_queues he
    refine ⟨⟨[], betOn_new he⟩, fun x hx => ?_, fun x hx => ?_⟩
    · exact (List.not_mem_nil (hinc ▸ hx)).elim
    · exact (List.not_mem_nil (hch ▸ hx)).elim
  | append_singleton calls c ih =>
    obtain ⟨⟨ds, hbet⟩, hqueues⟩ := ih
    obtain ⟨ps, hcloses, hfair⟩ := fair_call (e.run calls) c
    obtain ⟨hps, hnext⟩ := hfair hqueues
    rw [run_append]
    exact ⟨hbet.closes hcloses hps, hnext⟩

-- ---------------------------------------------------------------------------
-- What the bets have won
-- ---------------------------------------------------------------------------

theorem bet_range {margin : ℝ} (hm : 0 < margin) (hm' : margin ≤ 0.5) {side : Side}
    (hl : lambda ∈ bets margin side) :
    0 ≤ lambda ∧ ∀ x y, inUnit x → inUnit y → 0 < 1 + lambda * (side.sign * (x - y - margin)) := by
  obtain ⟨g, hg, rfl⟩ := List.mem_map.mp hl
  obtain ⟨hg0, hg1⟩ := lambdaGrid_range g hg
  have hw := worst_pos hm hm' side
  have hl0 : 0 ≤ g / worst margin side.sign := div_nonneg hg0 hw.le
  refine ⟨hl0, fun x y hx hy => ?_⟩
  have hlose := mul_le_mul_of_nonneg_left (neg_worst_le margin hx hy side) hl0
  rw [mul_neg, div_mul_cancel₀ _ hw.ne'] at hlose
  linarith

theorem BetOn.factor_pos {ds : List ℝ} (h : BetOn margin alpha ds e) (hm : 0 < margin)
    (hm' : margin ≤ 0.5) {side : Side} (hl : lambda ∈ bets margin side) :
    ∀ x ∈ gains margin side ds, 0 < 1 + lambda * x := by
  intro gain hgain
  obtain ⟨d, hd, rfl⟩ := List.mem_map.mp hgain
  obtain ⟨x, y, hx, hy, rfl⟩ := h.range d hd
  exact (bet_range hm hm' hl).2 x y hx hy

theorem BetOn.wealth_eq {ds : List ℝ} (h : BetOn margin alpha ds e) (side : Side) :
    (e.mixture side).wealth =
      (bets margin side).map fun lambda => betWealth lambda (gains margin side ds) := by
  rw [(h.wealth side).wealth_eq, (h.wealth side).lambdas_eq]
  rfl

theorem BetOn.wealth_pos {ds : List ℝ} (h : BetOn margin alpha ds e) (hm : 0 < margin)
    (hm' : margin ≤ 0.5) (side : Side) : ∀ w ∈ (e.mixture side).wealth, 0 < w := by
  intro w hw
  rw [h.wealth_eq side] at hw
  obtain ⟨lambda, hl, rfl⟩ := List.mem_map.mp hw
  exact betWealth_pos (h.factor_pos hm hm' hl)

theorem BetOn.eValue_le_one {ds : List ℝ} (h : BetOn margin alpha ds e) (hm : 0 < margin)
    (hm' : margin ≤ 0.5) (side : Side) (hsum : (gains margin side ds).sum ≤ 0) :
    (e.mixture side).eValue ≤ 1 := by
  rw [Mixture.eValue]
  refine average_le_one ?_ fun w hw => ?_
  · simp [h.wealth_eq side, bets, lambdaGrid]
  · rw [h.wealth_eq side] at hw
    obtain ⟨lambda, hl, rfl⟩ := List.mem_map.mp hw
    exact betWealth_le_one (bet_range hm hm' hl).1 (h.factor_pos hm hm' hl) hsum

theorem gains_opposite (margin : ℝ) (ds : List ℝ) :
    (gains margin .certify ds).sum = -(gains margin .halt ds).sum := by
  induction ds with
  | nil => simp [gains]
  | cons d ds ih =>
    simp only [gains, Side.sign, List.map_cons, List.sum_cons] at ih ⊢
    rw [ih]
    ring

theorem BetOn.min_le_one {ds : List ℝ} (h : BetOn margin alpha ds e) (hm : 0 < margin)
    (hm' : margin ≤ 0.5) : min e.certify.eValue e.halt.eValue ≤ 1 := by
  have hopposite := gains_opposite margin ds
  rcases le_total (gains margin .halt ds).sum 0 with hlost | hwon
  · exact (min_le_right _ _).trans (h.eValue_le_one hm hm' .halt hlost)
  · refine (min_le_left _ _).trans (h.eValue_le_one hm hm' .certify ?_)
    linarith

-- ---------------------------------------------------------------------------
-- The order of the two branches
-- ---------------------------------------------------------------------------

/-- `closePair` with the level of the halt side asked for first. -/
noncomputable def Experiment.closePairHaltFirst (e : Experiment ℝ) (xInc xCh : ℝ) :
    Experiment ℝ :=
  let e := { e with pairs := e.pairs + 1 }
  if e.status = .undecided then
    let d := xInc - xCh
    let e := { e with certify := e.certify.step d e.margin, halt := e.halt.step d e.margin }
    let level := 1 / e.alpha
    if level ≤ e.halt.eValue then { e with status := .halted, decidedAtPair := some e.pairs }
    else if level ≤ e.certify.eValue then
      { e with status := .certified, decidedAtPair := some e.pairs }
    else e
  else e

theorem level_gt_one {margin alpha : ℝ} (he : Experiment.new display margin alpha = .ok e) :
    1 < 1 / alpha := by
  obtain ⟨_, _, ha, ha', -⟩ := new_ok he
  rw [one_lt_div ha]
  norm_num at ha'
  linarith

theorem BetOn.not_both {ds : List ℝ} (h : BetOn margin alpha ds e) (hm : 0 < margin)
    (hm' : margin ≤ 0.5) (hlevel : 1 < 1 / alpha) :
    ¬(1 / alpha ≤ e.certify.eValue ∧ 1 / alpha ≤ e.halt.eValue) := by
  rintro ⟨hcertify, hhalt⟩
  have hmin := h.min_le_one hm hm'
  have hboth := le_min hcertify hhalt
  linarith

theorem BetOn.haltFirst {ds : List ℝ} (h : BetOn margin alpha ds e) (hm : 0 < margin)
    (hm' : margin ≤ 0.5) (hlevel : 1 < 1 / alpha) (hx : inUnit x) (hy : inUnit y) :
    e.closePair x y = e.closePairHaltFirst x y := by
  simp only [Experiment.closePair, Experiment.closePairHaltFirst]
  by_cases hopen : e.status = .undecided
  · obtain ⟨ds', hnext⟩ := h.closePair hx hy
    have hnot := hnext.not_both hm hm' hlevel
    have hcertify := mixture_closePair e x y .certify
    have hhalt := mixture_closePair e x y .halt
    rw [if_pos hopen] at hcertify hhalt
    rw [← h.alpha_eq, show (e.closePair x y).certify = _ from hcertify,
      show (e.closePair x y).halt = _ from hhalt] at hnot
    simp only [hopen, if_true]
    by_cases hc : 1 / e.alpha ≤ (e.certify.step (x - y) e.margin).eValue
    · have hh : ¬1 / e.alpha ≤ (e.halt.step (x - y) e.margin).eValue := fun hh => hnot ⟨hc, hh⟩
      simp only [hc, hh, if_true, if_false]
    · simp only [hc, if_false]
  · simp only [hopen, if_false]

/-- At every state of every run no bet is ruined, at most one side can conclude, and
which side is asked first makes no difference. -/
theorem experiment_exclusive {margin alpha : ℝ}
    (he : Experiment.new display margin alpha = .ok e) (calls : List (Call ℝ)) :
    (∀ side, ∀ w ∈ ((e.run calls).mixture side).wealth, 0 < w) ∧
    min (e.run calls).certify.eValue (e.run calls).halt.eValue ≤ 1 ∧
    1 < 1 / (e.run calls).alpha ∧
    ¬(1 / (e.run calls).alpha ≤ (e.run calls).certify.eValue ∧
      1 / (e.run calls).alpha ≤ (e.run calls).halt.eValue) ∧
    ∀ x y, inUnit x → inUnit y →
      (e.run calls).closePair x y = (e.run calls).closePairHaltFirst x y := by
  obtain ⟨⟨ds, hbet⟩, -⟩ := betOn_run he calls
  obtain ⟨hm, hm', -⟩ := new_ok he
  have hlevel := level_gt_one he
  rw [hbet.alpha_eq]
  exact ⟨hbet.wealth_pos hm hm', hbet.min_le_one hm hm', hlevel, hbet.not_both hm hm' hlevel,
    fun x y hx hy => hbet.haltFirst hm hm' hlevel hx hy⟩

theorem experiment_exclusive_pair : ∃ e : Experiment ℝ,
    Experiment.new (fun _ => "") 0.05 0.05 = .ok e ∧
      ¬(1 / (e.run [.pair (some 1) (some 0)]).alpha ≤
          (e.run [.pair (some 1) (some 0)]).certify.eValue ∧
        1 / (e.run [.pair (some 1) (some 0)]).alpha ≤
          (e.run [.pair (some 1) (some 0)]).halt.eValue) := by
  have hnew : ∃ e : Experiment ℝ, Experiment.new (fun _ => "") 0.05 0.05 = .ok e := by
    norm_num [Experiment.new]
  obtain ⟨e, he⟩ := hnew
  exact ⟨e, he, (experiment_exclusive he [.pair (some 1) (some 0)]).2.2.2.1⟩

end Firstpass.Select
