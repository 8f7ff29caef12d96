import Firstpass.Core.Predictor
import Firstpass.Lib.DiscountedCount
import Firstpass.Proxy.Bandit

/-!
# What a process learns from its attempts

The bandit counts the passes and the failures of a context and rung, and forgets a share of
a context's counts at each of them. The predictor is trained on the same attempts.
-/

namespace Firstpass.Bandit

variable {G : Type} [Field G] [LinearOrder G]

-- ---------------------------------------------------------------------------
-- The bandit
-- ---------------------------------------------------------------------------

/-- The bandit, with the share of its counts that it keeps. -/
structure LearningBandit (G : Type) extends StartRungBandit G where
  discount : G

/-- `f64::MIN_POSITIVE` -/
def minPositive : G := 1 / 2.0 ^ 1022

namespace LearningBandit

def new (minObservations : Nat) (exploration discount : G) : LearningBandit G :=
  { StartRungBandit.new minObservations exploration with
    discount := max minPositive (min discount 1) }

/-- One step of forgetting. -/
def discounted (b : LearningBandit G) (arms : List (Nat × ArmCounts G)) :
    List (Nat × ArmCounts G) :=
  if 1 ≤ b.discount then arms
  else arms.map fun arm => (arm.1, ⟨arm.2.pass * b.discount, arm.2.fail * b.discount⟩)

end LearningBandit

/-- The counts of a rung, which start at none. -/
def updateArm (rung : Nat) (f : ArmCounts G → ArmCounts G) :
    List (Nat × ArmCounts G) → List (Nat × ArmCounts G)
  | [] => [(rung, f ⟨0, 0⟩)]
  | arm :: arms => if arm.1 = rung then (rung, f arm.2) :: arms else arm :: updateArm rung f arms

def ArmCounts.passed (c : ArmCounts G) : ArmCounts G := { c with pass := c.pass + 1 }

def ArmCounts.failed (c : ArmCounts G) : ArmCounts G := { c with fail := c.fail + 1 }

namespace LearningBandit

def record (b : LearningBandit G) (ctx : ContextBucket) (rung : Nat)
    (f : ArmCounts G → ArmCounts G) : LearningBandit G :=
  { b with data := Function.update b.data ctx (updateArm rung f (b.discounted (b.data ctx))) }

/-- An abstention is ignored, and nothing is forgotten for it. -/
def observe (b : LearningBandit G) (ctx : ContextBucket) (rung : Nat) :
    Verdict → LearningBandit G
  | .abstain => b
  | .pass => b.record ctx rung .passed
  | .fail => b.record ctx rung .failed

/-- The passes and failures of a rung. -/
def counts (b : LearningBandit G) (ctx : ContextBucket) (rung : Nat) : G × G :=
  ((b.data ctx).lookup rung).elim (0, 0) fun c => (c.pass, c.fail)

variable {F : Type} [F64 F]

def feedTraceAttempts (b : LearningBandit G) (ctx : ContextBucket) (attempts : List (Attempt F)) :
    LearningBandit G :=
  attempts.foldl (fun b a => b.observe ctx a.rung a.verdict) b

end LearningBandit

end Firstpass.Bandit

namespace Firstpass.WarmStart

open Bandit DiscountedCount

-- ---------------------------------------------------------------------------
-- Examples
-- ---------------------------------------------------------------------------

/-- A training example: a request, a rung, and whether the attempt passed. -/
structure Example where
  features : Features
  rung : Nat
  passed : Bool

variable {F : Type} [F64 F]

def label (features : Features) (a : Attempt F) : Option Example :=
  match a.verdict with
  | .pass => some ⟨features, a.rung, true⟩
  | .fail => some ⟨features, a.rung, false⟩
  | .abstain => none

/-- The attempts with a clear verdict, in order. -/
def examples (features : Features) (attempts : List (Attempt F)) : List Example :=
  attempts.filterMap (label features)

variable {G : Type} [Field G] [LinearOrder G]

-- ---------------------------------------------------------------------------
-- The learners
-- ---------------------------------------------------------------------------

/-- The predictor, with the examples it was given. -/
structure Predictor (G : Type) where
  model : PassPredictor G
  given : List Example

/-- `[escalation.bandit]` and `[escalation.predictor]` -/
structure Config (G : Type) where
  bandit : Option (Nat × G × G)
  predictor : Option (G × G)

/-- What a process has learnt. -/
structure Learners (G : Type) where
  bandit : Option (LearningBandit G)
  predictor : Option (Predictor G)

def Learners.fresh (cfg : Config G) : Learners G where
  bandit := cfg.bandit.map fun (minObservations, exploration, discount) =>
    .new minObservations exploration discount
  predictor := cfg.predictor.map fun (lr, l2) => ⟨.new lr l2, []⟩

variable [Analytic G]

def Predictor.train (p : Predictor G) (features : Features) (attempts : List (Attempt F)) :
    Predictor G :=
  attempts.foldl (fun p a =>
    match a.verdict with
    | .pass => ⟨p.model.update features a.rung true, p.given ++ [⟨features, a.rung, true⟩]⟩
    | .fail => ⟨p.model.update features a.rung false, p.given ++ [⟨features, a.rung, false⟩]⟩
    | .abstain => p) p

def Learners.learn (s : Learners G) (ctx : ContextBucket) (features : Features)
    (attempts : List (Attempt F)) : Learners G where
  bandit := s.bandit.map fun b => b.feedTraceAttempts ctx attempts
  predictor := s.predictor.map fun p => p.train features attempts

-- ---------------------------------------------------------------------------
-- Only the examples matter
-- ---------------------------------------------------------------------------

def teachBandit (b : LearningBandit G) (e : Example) : LearningBandit G :=
  b.record (.fromFeatures e.features) e.rung (if e.passed then .passed else .failed)

def teachPredictor (p : Predictor G) (e : Example) : Predictor G :=
  ⟨p.model.update e.features e.rung e.passed, p.given ++ [e]⟩

def Learners.teach (s : Learners G) (es : List Example) : Learners G where
  bandit := s.bandit.map fun b => es.foldl teachBandit b
  predictor := s.predictor.map fun p => es.foldl teachPredictor p

omit [Analytic G] in
theorem feedTraceAttempts_eq (b : LearningBandit G) (features : Features)
    (attempts : List (Attempt F)) :
    b.feedTraceAttempts (.fromFeatures features) attempts =
      (examples features attempts).foldl teachBandit b := by
  induction attempts generalizing b with
  | nil => rfl
  | cons a attempts ih =>
    simp only [LearningBandit.feedTraceAttempts, examples, List.foldl_cons] at ih ⊢
    rw [ih]
    cases hverdict : a.verdict <;>
      simp [label, hverdict, LearningBandit.observe, teachBandit]

theorem train_eq (p : Predictor G) (features : Features) (attempts : List (Attempt F)) :
    p.train features attempts = (examples features attempts).foldl teachPredictor p := by
  induction attempts generalizing p with
  | nil => rfl
  | cons a attempts ih =>
    simp only [Predictor.train, examples, List.foldl_cons] at ih ⊢
    rw [ih]
    cases hverdict : a.verdict <;> simp [label, hverdict, teachPredictor]

theorem learn_eq (s : Learners G) (features : Features) (attempts : List (Attempt F)) :
    s.learn (.fromFeatures features) features attempts = s.teach (examples features attempts) := by
  simp only [Learners.learn, Learners.teach, feedTraceAttempts_eq, train_eq]

theorem teach_append (s : Learners G) (es es' : List Example) :
    s.teach (es ++ es') = (s.teach es).teach es' := by
  simp [Learners.teach, Function.comp_def]

@[simp] theorem teach_nil (s : Learners G) : s.teach [] = s := by
  simp [Learners.teach]

theorem given_teach (p : Predictor G) (es : List Example) :
    (es.foldl teachPredictor p).given = p.given ++ es := by
  induction es generalizing p with
  | nil => simp
  | cons e es ih => simp [ih, teachPredictor]

-- ---------------------------------------------------------------------------
-- Counts
-- ---------------------------------------------------------------------------

omit [LinearOrder G] [Analytic G] in
theorem lookup_updateArm (rung : Nat) (f : ArmCounts G → ArmCounts G)
    (arms : List (Nat × ArmCounts G)) (r : Nat) :
    (updateArm rung f arms).lookup r =
      if r = rung then some (f ((arms.lookup rung).getD ⟨0, 0⟩)) else arms.lookup r := by
  induction arms with
  | nil =>
    by_cases hr : r = rung
    · simp [updateArm, hr]
    · simp [updateArm, List.lookup_cons, hr, beq_false_of_ne hr]
  | cons arm arms ih =>
    obtain ⟨key, c⟩ := arm
    by_cases hkey : key = rung
    · subst hkey
      by_cases hr : r = key
      · simp [updateArm, hr]
      · simp [updateArm, List.lookup_cons, hr, beq_false_of_ne hr]
    · by_cases hr : r = rung
      · subst hr
        simp [updateArm, List.lookup_cons, hkey, beq_false_of_ne (Ne.symm hkey), ih]
      · simp [updateArm, List.lookup_cons, hkey, hr, ih]

omit [Field G] [LinearOrder G] [Analytic G] in
theorem lookup_map_arms (f : ArmCounts G → ArmCounts G) (arms : List (Nat × ArmCounts G))
    (r : Nat) : (arms.map fun arm => (arm.1, f arm.2)).lookup r = (arms.lookup r).map f := by
  induction arms with
  | nil => rfl
  | cons arm arms ih =>
    obtain ⟨key, c⟩ := arm
    simp only [List.map_cons, List.lookup_cons]
    split <;> simp [ih]

omit [Analytic G] in
/-- A share of one keeps the counts as they are. -/
theorem lookup_discounted {b : LearningBandit G} (hb : b.discount ≤ 1)
    (arms : List (Nat × ArmCounts G)) (r : Nat) :
    (b.discounted arms).lookup r =
      (arms.lookup r).map fun c => ⟨c.pass * b.discount, c.fail * b.discount⟩ := by
  unfold LearningBandit.discounted
  split_ifs with hone
  · rw [le_antisymm hb hone]
    simp
  · exact lookup_map_arms (fun c => ⟨c.pass * b.discount, c.fail * b.discount⟩) arms r

/-- Whether an example is a pass of a rung. -/
def isHit (rung : Nat) (e : Example) : Bool := e.rung = rung && e.passed

def inContext (ctx : ContextBucket) (e : Example) : Bool :=
  ContextBucket.fromFeatures e.features = ctx

/-- The observations of a context, and which of them are passes of a rung. -/
def hits (ctx : ContextBucket) (rung : Nat) (es : List Example) : List Bool :=
  (es.filter (inContext ctx)).map (isHit rung)

omit [Analytic G] in
/-- An observation of a context discounts the passes of every rung, and adds to one. -/
theorem pass_teachBandit {b : LearningBandit G} (hb : b.discount ≤ 1) (e : Example)
    (ctx : ContextBucket) (rung : Nat) :
    ((teachBandit b e).counts ctx rung).1 =
      if inContext ctx e then step b.discount (b.counts ctx rung).1 (isHit rung e)
      else (b.counts ctx rung).1 := by
  by_cases hctx : ContextBucket.fromFeatures e.features = ctx
  · subst hctx
    have hdata : (teachBandit b e).data (.fromFeatures e.features) =
        updateArm e.rung (if e.passed then .passed else .failed)
          (b.discounted (b.data (.fromFeatures e.features))) := Function.update_self _ _ _
    simp only [LearningBandit.counts, hdata, lookup_updateArm, lookup_discounted hb, inContext,
      isHit]
    by_cases hr : rung = e.rung
    · subst hr
      cases (b.data (.fromFeatures e.features)).lookup e.rung <;> cases e.passed <;>
        simp [step, ArmCounts.passed, ArmCounts.failed, mul_comm]
    · cases (b.data (.fromFeatures e.features)).lookup rung <;>
        simp [step, hr, Ne.symm hr, mul_comm]
  · simp [teachBandit, LearningBandit.record, LearningBandit.counts, inContext, hctx,
      Function.update_of_ne (Ne.symm hctx)]

omit [Analytic G] in
theorem pass_teach {b : LearningBandit G} (hb : b.discount ≤ 1) (es : List Example)
    (ctx : ContextBucket) (rung : Nat) :
    ((es.foldl teachBandit b).counts ctx rung).1 =
      count b.discount (b.counts ctx rung).1 (hits ctx rung es) := by
  induction es generalizing b with
  | nil => rfl
  | cons e es ih =>
    have hkept : (teachBandit b e).discount ≤ 1 := hb
    rw [List.foldl_cons, ih hkept, pass_teachBandit hb]
    simp only [hits, List.filter_cons]
    split <;> rfl

variable [IsStrictOrderedRing G]

omit [Analytic G] in
theorem discount_new (minObservations : Nat) (exploration discount : G) :
    0 < (LearningBandit.new minObservations exploration discount).discount ∧
      (LearningBandit.new minObservations exploration discount).discount ≤ 1 := by
  have htwo : (2.0 : G) = 2 := by norm_num
  have hpos : (0 : G) < minPositive := by simp [minPositive, htwo]
  have hle : (minPositive : G) ≤ 1 := by
    rw [minPositive, htwo]
    exact div_le_one_of_le₀ (one_le_pow₀ one_le_two) (by positivity)
  exact ⟨lt_max_of_lt_left hpos, max_le hle (min_le_right _ _)⟩

end Firstpass.WarmStart
