import Firstpass.Core.SelectBound

/-!
# Runs of an experiment

The monitor is fed outcomes, pairs and costs in any order. What a run of outcomes
and costs leaves behind is a function of what each arm reported.
-/

namespace Firstpass.Select

variable {F : Type} [Field F] [LinearOrder F]

/-- A call of the monitor. A number that is not finite is `none`, and refused. -/
inductive Call (F : Type)
  | outcome (arm : Arm) (x : Option F)
  | pair (xInc xCh : Option F)
  | cost (arm : Arm) (costUsd : Option F)

def Experiment.call (e : Experiment F) : Call F → Experiment F
  | .outcome arm (some x) => (e.observeOutcome arm x).1
  | .pair (some xInc) (some xCh) => (e.observePair xInc xCh).1
  | .cost arm (some costUsd) => e.observeCost arm costUsd
  | _ => e

def Experiment.run (e : Experiment F) (calls : List (Call F)) : Experiment F :=
  calls.foldl Experiment.call e

theorem run_append (e : Experiment F) (calls more : List (Call F)) :
    e.run (calls ++ more) = (e.run calls).run more := List.foldl_append

theorem run_cons (e : Experiment F) (c : Call F) (calls : List (Call F)) :
    e.run (c :: calls) = (e.call c).run calls := rfl

def Call.isPair : Call F → Bool
  | .pair .. => true
  | _ => false

/-- The outcome a call adds to an arm. -/
def Call.outcomeOf (arm : Arm) : Call F → Option F
  | .outcome arm' (some x) => if arm' = arm ∧ inUnit x then some x else none
  | _ => none

/-- The cost a call adds to an arm. -/
def Call.costOf (arm : Arm) : Call F → Option F
  | .cost arm' (some costUsd) => if arm' = arm ∧ ¬costUsd < 0 then some costUsd else none
  | _ => none

def outcomes (arm : Arm) (calls : List (Call F)) : List F := calls.filterMap (Call.outcomeOf arm)

def costs (arm : Arm) (calls : List (Call F)) : List F := calls.filterMap (Call.costOf arm)

def Experiment.stats (e : Experiment F) : Arm → ArmStats F
  | .incumbent => e.incumbent
  | .challenger => e.challenger

-- ---------------------------------------------------------------------------
-- Closing pairs
-- ---------------------------------------------------------------------------

/-- The fields that closing a pair does not read. -/
def Experiment.withArms (e : Experiment F) (incs chs : List F) (inc ch : ArmStats F) :
    Experiment F :=
  { e with pendingIncumbent := incs, pendingChallenger := chs, incumbent := inc, challenger := ch }

theorem closePair_withArms (e : Experiment F) (incs chs : List F) (inc ch : ArmStats F) (x y : F) :
    (e.withArms incs chs inc ch).closePair x y = (e.closePair x y).withArms incs chs inc ch := by
  by_cases hopen : e.status = .undecided
  · by_cases hcertify : 1 / e.alpha ≤ (e.certify.step (x - y) e.margin).eValue
    · simp only [Experiment.closePair, Experiment.withArms, hopen, hcertify, if_true]
    · by_cases hhalt : 1 / e.alpha ≤ (e.halt.step (x - y) e.margin).eValue
      · simp only [Experiment.closePair, Experiment.withArms, hopen, hcertify, hhalt, if_true,
          if_false]
      · simp only [Experiment.closePair, Experiment.withArms, hopen, hcertify, hhalt, if_true,
          if_false]
  · simp only [Experiment.closePair, Experiment.withArms, hopen, if_false]

def Experiment.closeAll (e : Experiment F) (pairs : List (F × F)) : Experiment F :=
  pairs.foldl (fun e p => e.closePair p.1 p.2) e

theorem closeAll_append (e : Experiment F) (ps qs : List (F × F)) :
    e.closeAll (ps ++ qs) = (e.closeAll ps).closeAll qs := List.foldl_append

theorem closeAll_withArms (e : Experiment F) (incs chs : List F) (inc ch : ArmStats F)
    (ps : List (F × F)) :
    (e.withArms incs chs inc ch).closeAll ps = (e.closeAll ps).withArms incs chs inc ch :=
  List.foldl_hom (Experiment.withArms · incs chs inc ch) fun e p =>
    closePair_withArms e incs chs inc ch p.1 p.2

theorem closePair_arms (e : Experiment F) (x y : F) :
    (e.closePair x y).incumbent = e.incumbent ∧ (e.closePair x y).challenger = e.challenger ∧
      (e.closePair x y).pairs = e.pairs + 1 := by
  simp only [Experiment.closePair]
  split_ifs <;> exact ⟨rfl, rfl, rfl⟩

theorem closeAll_arms (e : Experiment F) (ps : List (F × F)) :
    (e.closeAll ps).incumbent = e.incumbent ∧ (e.closeAll ps).challenger = e.challenger ∧
      (e.closeAll ps).pairs = e.pairs + ps.length := by
  induction ps generalizing e with
  | nil => exact ⟨rfl, rfl, rfl⟩
  | cons p ps ih =>
    obtain ⟨hinc, hch, hpairs⟩ := closePair_arms e p.1 p.2
    obtain ⟨ihinc, ihch, ihpairs⟩ := ih (e.closePair p.1 p.2)
    refine ⟨ihinc.trans hinc, ihch.trans hch, ihpairs.trans ?_⟩
    rw [hpairs, List.length_cons]
    omega

/-- The loop closes the pairs at the front and keeps what is left of the longer queue. -/
theorem closePairs_eq (e : Experiment F) (incs chs : List F) :
    e.closePairs incs chs = (e.closeAll (incs.zip chs)).withArms
      (incs.drop chs.length) (chs.drop incs.length) e.incumbent e.challenger := by
  fun_induction Experiment.closePairs e incs chs with
  | case1 e x incs y chs ih =>
    obtain ⟨hinc, hch, -⟩ := closePair_arms e x y
    rw [ih, hinc, hch]
    rfl
  | case2 e incs chs hshort =>
    have hone : incs = [] ∨ chs = [] := by
      cases incs with
      | nil => exact .inl rfl
      | cons x incs =>
        cases chs with
        | nil => exact .inr rfl
        | cons y chs => exact (hshort x incs y chs rfl rfl).elim
    rcases hone with rfl | rfl
    · rw [List.zip_nil_left, List.length_nil, List.drop_zero, List.drop_nil]
      rfl
    · rw [List.zip_nil_right, List.length_nil, List.drop_zero, List.drop_nil]
      rfl

omit [Field F] [LinearOrder F] in
/-- What two queues hold back, joined with what comes next. -/
theorem zip_append_drop (incs chs more less : List F) :
    incs.zip chs ++ (incs.drop chs.length ++ more).zip (chs.drop incs.length ++ less) =
        (incs ++ more).zip (chs ++ less) ∧
      (incs.drop chs.length ++ more).drop (chs.drop incs.length ++ less).length =
        (incs ++ more).drop (chs ++ less).length ∧
      (chs.drop incs.length ++ less).drop (incs.drop chs.length ++ more).length =
        (chs ++ less).drop (incs ++ more).length := by
  induction incs generalizing chs with
  | nil => simp
  | cons x incs ih =>
    cases chs with
    | nil => simp
    | cons y chs =>
      obtain ⟨hzip, hinc, hch⟩ := ih chs
      exact ⟨congrArg ((x, y) :: ·) hzip, hinc, hch⟩

-- ---------------------------------------------------------------------------
-- What a run leaves behind
-- ---------------------------------------------------------------------------

def fedStats (s : ArmStats F) (xs cs : List F) : ArmStats F := cs.foldl .cost (xs.foldl .outcome s)

/-- The experiment `e` after the outcomes `xs` and the costs `cs` of each arm,
whatever the order in which the arms took turns. -/
def Experiment.fed (e : Experiment F) (xs cs : Arm → List F) : Experiment F :=
  (e.closeAll ((xs .incumbent).zip (xs .challenger))).withArms
    ((xs .incumbent).drop (xs .challenger).length) ((xs .challenger).drop (xs .incumbent).length)
    (fedStats e.incumbent (xs .incumbent) (cs .incumbent))
    (fedStats e.challenger (xs .challenger) (cs .challenger))

omit [LinearOrder F] in
theorem fedStats_outcome (s : ArmStats F) (xs cs : List F) (x : F) :
    fedStats s (xs ++ [x]) cs = (fedStats s xs cs).outcome x := by
  rw [fedStats, List.foldl_append]
  exact List.foldl_hom (ArmStats.outcome · x) fun _ _ => rfl

omit [LinearOrder F] in
theorem fedStats_cost (s : ArmStats F) (xs cs : List F) (c : F) :
    fedStats s xs (cs ++ [c]) = (fedStats s xs cs).cost c := by
  rw [fedStats, List.foldl_append]
  rfl

omit [LinearOrder F] in
theorem fedStats_perm {cs ds : List F} (h : cs.Perm ds) (s : ArmStats F) (xs : List F) :
    fedStats s xs cs = fedStats s xs ds := by
  refine h.foldl_eq' (fun a _ b _ s => ?_) _
  simp only [ArmStats.cost, add_right_comm]

theorem closePairs_fed (e : Experiment F) (incs chs more less a b : List F) (inc ch : ArmStats F) :
    ((e.closeAll (incs.zip chs)).withArms a b inc ch).closePairs
        (incs.drop chs.length ++ more) (chs.drop incs.length ++ less) =
      (e.closeAll ((incs ++ more).zip (chs ++ less))).withArms
        ((incs ++ more).drop (chs ++ less).length) ((chs ++ less).drop (incs ++ more).length)
        inc ch := by
  obtain ⟨hzip, hinc, hch⟩ := zip_append_drop incs chs more less
  rw [closePairs_eq, closeAll_withArms, ← closeAll_append, hzip, hinc, hch]
  rfl

/-- The streams `xs` of the arms after what a call adds to them. -/
def Call.addTo (c : Call F) (of : Arm → Call F → Option F) (xs : Arm → List F) (arm : Arm) :
    List F := xs arm ++ (of arm c).toList

omit [Field F] [LinearOrder F] in
theorem addTo_none (of : Arm → Call F → Option F) {c : Call F} (h : ∀ arm, of arm c = none)
    (xs : Arm → List F) : c.addTo of xs = xs := by
  funext arm
  rw [Call.addTo, h arm]
  exact List.append_nil _

omit [Field F] [LinearOrder F] in
theorem addTo_of {of : Arm → Call F → Option F} {c : Call F} {arm : Arm} {x : F}
    (h : ∀ arm', of arm' c = if arm = arm' then some x else none) (xs : Arm → List F)
    (arm' : Arm) : c.addTo of xs arm' = if arm = arm' then xs arm' ++ [x] else xs arm' := by
  rw [Call.addTo, h]
  split
  · rfl
  · exact List.append_nil _

theorem outcome_fed (e : Experiment F) (xs cs : Arm → List F) (arm : Arm) (hx : inUnit x) :
    ((e.fed xs cs).observeOutcome arm x).1 =
      e.fed ((Call.outcome arm (some x)).addTo Call.outcomeOf xs) cs := by
  have hclose := closePairs_fed e (xs .incumbent) (xs .challenger)
  have hout : ∀ arm', (Call.outcome arm (some x)).outcomeOf arm' =
      if arm = arm' then some x else none := fun arm' => by
    simp only [Call.outcomeOf, hx, and_true]
  have hadd := addTo_of hout xs
  rw [Experiment.observeOutcome.eq_def, if_pos hx]
  cases arm with
  | incumbent =>
    have hpush := hclose [x] []
    simp only [List.append_nil] at hpush
    simp only [Experiment.fed, hadd, if_true, reduceCtorEq, if_false, fedStats_outcome]
    exact hpush _ _ _ _
  | challenger =>
    have hpush := hclose [] [x]
    simp only [List.append_nil] at hpush
    simp only [Experiment.fed, hadd, if_true, reduceCtorEq, if_false, fedStats_outcome]
    exact hpush _ _ _ _

theorem cost_fed (e : Experiment F) (xs cs : Arm → List F) (arm : Arm) (hc : ¬c < 0) :
    (e.fed xs cs).observeCost arm c =
      e.fed xs ((Call.cost arm (some c)).addTo Call.costOf cs) := by
  have hcost : ∀ arm', (Call.cost arm (some c)).costOf arm' =
      if arm = arm' then some c else none := fun arm' => by
    simp only [Call.costOf, hc, not_false_iff, and_true]
  have hadd := addTo_of hcost cs
  rw [Experiment.observeCost.eq_def, if_neg hc]
  cases arm with
  | incumbent =>
    simp only [Experiment.fed, hadd, if_true, reduceCtorEq, if_false, fedStats_cost]
    rfl
  | challenger =>
    simp only [Experiment.fed, hadd, if_true, reduceCtorEq, if_false, fedStats_cost]
    rfl

theorem call_fed (e : Experiment F) (xs cs : Arm → List F) {c : Call F} (hc : c.isPair = false) :
    (e.fed xs cs).call c = e.fed (c.addTo Call.outcomeOf xs) (c.addTo Call.costOf cs) := by
  cases c with
  | pair xInc xCh => cases hc
  | outcome arm x =>
    rw [addTo_none Call.costOf fun _ => rfl]
    cases x with
    | none => rw [addTo_none Call.outcomeOf fun _ => rfl]; rfl
    | some x =>
      by_cases hx : inUnit x
      · exact outcome_fed e xs cs arm hx
      · have hnone : ∀ arm', (Call.outcome arm (some x)).outcomeOf arm' = none :=
          fun arm' => if_neg fun h => hx h.2
        rw [addTo_none Call.outcomeOf hnone]
        exact congrArg Prod.fst (if_neg hx)
  | cost arm costUsd =>
    rw [addTo_none Call.outcomeOf fun _ => rfl]
    cases costUsd with
    | none => rw [addTo_none Call.costOf fun _ => rfl]; rfl
    | some c =>
      by_cases hneg : c < 0
      · have hnone : ∀ arm', (Call.cost arm (some c)).costOf arm' = none :=
          fun arm' => if_neg fun h => h.2 hneg
        rw [addTo_none Call.costOf hnone]
        exact if_pos hneg
      · exact cost_fed e xs cs arm hneg

theorem new_queues {margin alpha : F} (he : Experiment.new display margin alpha = .ok e) :
    e.pairs = 0 ∧ e.pendingIncumbent = [] ∧ e.pendingChallenger = [] := by
  unfold Experiment.new at he
  split_ifs at he with hm ha
  obtain rfl := Except.ok.inj he
  exact ⟨rfl, rfl, rfl⟩

theorem fed_nil {margin alpha : F} (he : Experiment.new display margin alpha = .ok e) :
    e.fed (fun _ => []) (fun _ => []) = e := by
  unfold Experiment.new at he
  split_ifs at he with hm ha
  obtain rfl := Except.ok.inj he
  rfl

theorem run_fed {margin alpha : F} (he : Experiment.new display margin alpha = .ok e)
    {calls : List (Call F)} (hcalls : ∀ c ∈ calls, c.isPair = false) :
    e.run calls = e.fed (fun arm => outcomes arm calls) (fun arm => costs arm calls) := by
  induction calls using List.reverseRec with
  | nil => exact (fed_nil he).symm
  | append_singleton calls c ih =>
    have hlast := hcalls c (by simp)
    rw [run_append, ih fun c hc => hcalls c (List.mem_append_left _ hc)]
    refine (call_fed e _ _ hlast).trans ?_
    simp only [outcomes, costs, List.filterMap_append]
    rfl

-- ---------------------------------------------------------------------------
-- A decision is final
-- ---------------------------------------------------------------------------

/-- What waits for the other arm is in range. -/
def Experiment.QueuesOk (e : Experiment F) : Prop :=
  (∀ x ∈ e.pendingIncumbent, inUnit x) ∧ ∀ x ∈ e.pendingChallenger, inUnit x

/-- The second experiment is the first after closing the pairs `ps`, with other arms. -/
inductive Closes (e : Experiment F) (ps : List (F × F)) : Experiment F → Prop
  | intro (incs chs : List F) (inc ch : ArmStats F) :
      Closes e ps ((e.closeAll ps).withArms incs chs inc ch)

/-- A call that closes pairs in range, and leaves queues in range. -/
def Fair (e e' : Experiment F) : Prop :=
  ∃ ps, Closes e ps e' ∧ (e.QueuesOk → (∀ p ∈ ps, inUnit p.1 ∧ inUnit p.2) ∧ e'.QueuesOk)

theorem Fair.refl (e : Experiment F) : Fair e e :=
  ⟨[], .intro e.pendingIncumbent e.pendingChallenger e.incumbent e.challenger,
    fun hq => ⟨nofun, hq⟩⟩

theorem fair_closePairs (e : Experiment F) (incs chs a b : List F) (inc ch : ArmStats F)
    (hi : e.QueuesOk → ∀ x ∈ incs, inUnit x) (hc : e.QueuesOk → ∀ x ∈ chs, inUnit x) :
    Fair e ((e.withArms a b inc ch).closePairs incs chs) := by
  rw [closePairs_eq, closeAll_withArms]
  refine ⟨incs.zip chs, .intro _ _ _ _, fun hq => ⟨fun p hp => ?_, ?_, ?_⟩⟩
  · have hmem := List.of_mem_zip hp
    exact ⟨hi hq _ hmem.1, hc hq _ hmem.2⟩
  · exact fun x hx => hi hq x (List.mem_of_mem_drop hx)
  · exact fun x hx => hc hq x (List.mem_of_mem_drop hx)

theorem fair_outcome (e : Experiment F) (arm : Arm) (x : F) :
    Fair e (e.observeOutcome arm x).1 := by
  rw [Experiment.observeOutcome.eq_def]
  by_cases hx : inUnit x
  · rw [if_pos hx]
    have hadd : ∀ xs : List F, (∀ y ∈ xs, inUnit y) → ∀ y ∈ xs ++ [x], inUnit y := by
      intro xs hxs y hy
      rcases List.mem_append.mp hy with hy | hy
      · exact hxs y hy
      · exact List.mem_singleton.mp hy ▸ hx
    cases arm with
    | incumbent => exact fair_closePairs e _ _ _ _ _ _ (fun hq => hadd _ hq.1) fun hq => hq.2
    | challenger => exact fair_closePairs e _ _ _ _ _ _ (fun hq => hq.1) fun hq => hadd _ hq.2
  · rw [if_neg hx]
    exact .refl e

theorem fair_pair (e : Experiment F) (xInc xCh : F) : Fair e (e.observePair xInc xCh).1 := by
  simp only [Experiment.observePair]
  split_ifs with hr
  · have hclose := closePair_withArms e e.pendingIncumbent e.pendingChallenger
      (e.incumbent.outcome xInc) (e.challenger.outcome xCh) xInc xCh
    refine ⟨[(xInc, xCh)], hclose ▸ .intro _ _ _ _, fun hq => ⟨?_, ?_⟩⟩
    · intro p hp
      exact List.mem_singleton.mp hp ▸ hr
    · exact hclose ▸ hq
  · exact .refl e

theorem fair_cost (e : Experiment F) (arm : Arm) (c : F) : Fair e (e.observeCost arm c) := by
  rw [Experiment.observeCost.eq_def]
  split_ifs with hneg
  · exact .refl e
  · cases arm with
    | incumbent => exact ⟨[], .intro _ _ (e.incumbent.cost c) _, fun hq => ⟨nofun, hq⟩⟩
    | challenger => exact ⟨[], .intro _ _ _ (e.challenger.cost c), fun hq => ⟨nofun, hq⟩⟩

/-- Every call closes some pairs and otherwise only writes the arms. -/
theorem fair_call (e : Experiment F) (c : Call F) : Fair e (e.call c) := by
  cases c with
  | outcome arm x =>
    cases x with
    | none => exact .refl e
    | some x => exact fair_outcome e arm x
  | pair xInc xCh =>
    cases xInc with
    | none => exact .refl e
    | some xInc =>
      cases xCh with
      | none => exact .refl e
      | some xCh => exact fair_pair e xInc xCh
  | cost arm c =>
    cases c with
    | none => exact .refl e
    | some c => exact fair_cost e arm c

/-- What the test has concluded, and from what. -/
def Experiment.test (e : Experiment F) : Status × Option Nat × Mixture F × Mixture F :=
  (e.status, e.decidedAtPair, e.certify, e.halt)

theorem closePair_decided {e : Experiment F} (h : e.status ≠ .undecided) (x y : F) :
    (e.closePair x y).test = e.test := by
  simp only [Experiment.closePair, h, if_false, Experiment.test]

theorem closeAll_decided {e : Experiment F} (h : e.status ≠ .undecided) (ps : List (F × F)) :
    (e.closeAll ps).test = e.test := by
  induction ps generalizing e with
  | nil => rfl
  | cons p ps ih =>
    have hp := closePair_decided h p.1 p.2
    have hs : (e.closePair p.1 p.2).status = e.status := congrArg Prod.fst hp
    exact (ih (hs ▸ h)).trans hp

theorem Closes.decided {e e' : Experiment F} {ps : List (F × F)} (hcloses : Closes e ps e')
    (h : e.status ≠ .undecided) : e'.test = e.test := by
  cases hcloses with
  | intro incs chs inc ch => exact closeAll_decided h ps

theorem run_decided {e : Experiment F} (h : e.status ≠ .undecided) (calls : List (Call F)) :
    (e.run calls).test = e.test := by
  induction calls generalizing e with
  | nil => rfl
  | cons c calls ih =>
    obtain ⟨ps, hcloses, -⟩ := fair_call e c
    have hc := hcloses.decided h
    have hs : (e.call c).status = e.status := congrArg Prod.fst hc
    exact (ih (hs ▸ h)).trans hc

-- ---------------------------------------------------------------------------
-- First-in first-out pairing is confluent
-- ---------------------------------------------------------------------------

theorem fed_pairs (e : Experiment F) (xs cs : Arm → List F) (hp : e.pairs = 0) :
    (e.fed xs cs).pairs = min (xs .incumbent).length (xs .challenger).length := by
  have hpairs := (closeAll_arms e ((xs .incumbent).zip (xs .challenger))).2.2
  rwa [hp, Nat.zero_add, List.length_zip] at hpairs

omit [Field F] [LinearOrder F] in
theorem drop_length_min (xs ys : List F) : xs.drop ys.length = xs.drop (min xs.length ys.length) := by
  rcases Nat.le_total xs.length ys.length with h | h
  · rw [Nat.min_eq_left h, List.drop_length, List.drop_eq_nil_of_le h]
  · rw [Nat.min_eq_right h]

/-- What an experiment concludes, and the pairs it has consumed, depend on what
each arm reported and not on the order in which the arms took turns. -/
theorem experiment_confluent {margin alpha : F} (he : Experiment.new display margin alpha = .ok e)
    {first second : List (Call F)} (hfirst : ∀ c ∈ first, c.isPair = false)
    (hsecond : ∀ c ∈ second, c.isPair = false)
    (hout : ∀ arm, outcomes arm first = outcomes arm second) :
    ((∀ arm, (costs arm first).Perm (costs arm second)) → e.run first = e.run second) ∧
    (e.run first).test = (e.run second).test ∧
    (e.run first).pairs =
      min (outcomes .incumbent first).length (outcomes .challenger first).length ∧
    (e.run first).pairs = (e.run second).pairs ∧
    (e.run first).pendingIncumbent = (outcomes .incumbent first).drop (e.run first).pairs ∧
    (e.run first).pendingChallenger = (outcomes .challenger first).drop (e.run first).pairs ∧
    ((e.run first).pendingIncumbent = [] ∨ (e.run first).pendingChallenger = []) ∧
    ∀ calls more : List (Call F), (e.run calls).status ≠ .undecided →
      (e.run (calls ++ more)).test = (e.run calls).test := by
  have hp : e.pairs = 0 := (new_queues he).1
  have hxs : (fun arm => outcomes arm second) = fun arm => outcomes arm first :=
    funext fun arm => (hout arm).symm
  rw [run_fed he hfirst, run_fed he hsecond, hxs, fed_pairs _ _ _ hp, fed_pairs _ _ _ hp]
  refine ⟨fun hcosts => ?_, rfl, rfl, rfl, ?_, ?_, ?_, fun calls more hdecided => ?_⟩
  · rw [Experiment.fed, fedStats_perm (hcosts .incumbent), fedStats_perm (hcosts .challenger)]
    rfl
  · exact drop_length_min _ _
  · rw [Nat.min_comm]
    exact drop_length_min _ _
  · rcases Nat.le_total (outcomes .incumbent first).length (outcomes .challenger first).length
      with h | h
    · exact .inl (List.drop_eq_nil_of_le h)
    · exact .inr (List.drop_eq_nil_of_le h)
  · rw [run_append]
    exact run_decided hdecided more

theorem experiment_confluent_swap :
    ∃ e : Experiment ℚ, Experiment.new (fun _ => "") 0.05 0.05 = .ok e ∧
      e.run [.outcome .incumbent (some 1), .cost .challenger (some 2), .outcome .challenger (some 0)] =
        e.run [.outcome .challenger (some 0), .outcome .incumbent none,
          .outcome .incumbent (some 1), .cost .challenger (some 2)] := by
  have hnew : ∃ e : Experiment ℚ, Experiment.new (fun _ => "") 0.05 0.05 = .ok e := by
    norm_num [Experiment.new]
  obtain ⟨e, he⟩ := hnew
  refine ⟨e, he, (experiment_confluent he ?_ ?_ fun arm => ?_).1 fun arm => ?_⟩
  · simp [Call.isPair]
  · simp [Call.isPair]
  · cases arm <;> decide +kernel
  · cases arm <;> decide +kernel

end Firstpass.Select
