import Mathlib.Algebra.BigOperators.Group.List.Lemmas
import Mathlib.Data.List.AList
import Mathlib.Data.List.Dedup
import Mathlib.Logic.Function.Basic
import Firstpass.Core.Verdict

/-!
# The summary of a tenant's receipts

A read folds the rows since the last one it has a cached total of, by three queries over
rows with an upper bound. Rows are appended, and other reads come and go, at any time
between its queries.

Sums are exact. A poisoned lock, which no call here can leave, is left out.
-/

namespace Firstpass.Summary

variable {F : Type} [AddCommMonoid F]

structure AttemptBody where
  truncated : Bool
  gates : List Verdict

/-- What the queries read of the body of a row. A number that is not finite is `null`
there: `none`. -/
structure Body (F : Type) where
  totalCostUsd : Option F
  counterfactualBaselineUsd : Option F
  servedRung : Option Nat
  escalations : Nat
  attempts : List AttemptBody

def Body.verdicts (b : Body F) : List Verdict := b.attempts.flatMap AttemptBody.gates

structure Row (F : Type) where
  seq : Nat
  tenant : String
  body : Body F

@[ext]
structure ReceiptsSummary (F : Type) where
  requests : Nat
  spentUsd : F
  baselineUsd : F
  firstPass : Nat
  escalated : Nat
  gates : Fin 3 → Nat
  truncated : Nat

def ReceiptsSummary.default : ReceiptsSummary F := ⟨0, 0, 0, 0, 0, fun _ => 0, 0⟩

def ReceiptsSummary.merged (s d : ReceiptsSummary F) : ReceiptsSummary F where
  requests := s.requests + d.requests
  spentUsd := s.spentUsd + d.spentUsd
  baselineUsd := s.baselineUsd + d.baselineUsd
  firstPass := s.firstPass + d.firstPass
  escalated := s.escalated + d.escalated
  gates i := s.gates i + d.gates i
  truncated := s.truncated + d.truncated

def slot : Verdict → Fin 3
  | .pass => 0
  | .fail => 1
  | .abstain => 2

-- ---------------------------------------------------------------------------
-- The queries
-- ---------------------------------------------------------------------------

/-- `max(seq)` over some rows, zero for none. -/
def maxSeq (rows : List (Row F)) : Nat := (rows.map Row.seq).foldr max 0

def ofTenant (tenant : String) (rows : List (Row F)) : List (Row F) :=
  rows.filter fun r => r.tenant = tenant

/-- The bodies of the tenant's rows with `after < seq <= hi`. -/
def between (rows : List (Row F)) (tenant : String) (after hi : Nat) : List (Body F) :=
  ((ofTenant tenant rows).filter fun r => after < r.seq ∧ r.seq ≤ hi).map Row.body

/-- `total` passes over `null`. -/
def total (xs : List (Option F)) : F := (xs.filterMap id).sum

def aggregateQuery (bodies : List (Body F)) : ReceiptsSummary F where
  requests := bodies.length
  spentUsd := total (bodies.map Body.totalCostUsd)
  baselineUsd := total (bodies.map Body.counterfactualBaselineUsd)
  firstPass := bodies.countP fun b => b.servedRung = some 0
  escalated := bodies.countP fun b => 0 < b.escalations
  gates _ := 0
  truncated := 0

def truncatedQuery (bodies : List (Body F)) : Nat :=
  (bodies.flatMap Body.attempts).countP AttemptBody.truncated

/-- The verdicts of all gates, each with its number. -/
def verdictsQuery (bodies : List (Body F)) : List (Verdict × Nat) :=
  let verdicts := bodies.flatMap Body.verdicts
  verdicts.dedup.map fun v => (v, verdicts.count v)

def ReceiptsSummary.addVerdicts (s : ReceiptsSummary F) (groups : List (Verdict × Nat)) :
    ReceiptsSummary F :=
  groups.foldl (fun s g => { s with
    gates := Function.update s.gates (slot g.1) (s.gates (slot g.1) + g.2) }) s

-- ---------------------------------------------------------------------------
-- Reads
-- ---------------------------------------------------------------------------

abbrev Key := String × String

abbrev SummaryCache (F : Type) := AList fun _ : Key => Nat × ReceiptsSummary F

/-- How far a read has come: it knows the newest row; what is cached; then one query
after the other. -/
inductive Phase (F : Type)
  | begun
  | looked (after : Nat) (base : ReceiptsSummary F)
  | aggregated (after : Nat) (base s : ReceiptsSummary F)
  | counted (after : Nat) (base s : ReceiptsSummary F)
  | folded (total : ReceiptsSummary F)

structure Reader (F : Type) where
  path : String
  tenant : String
  hi : Nat
  phase : Phase F

/-- What a read returned, kept for the statements. -/
structure Returned (F : Type) where
  path : String
  tenant : String
  hi : Nat
  summary : ReceiptsSummary F

/-- The stores, and the cache and the reads of the process. -/
structure System (F : Type) where
  rows : String → List (Row F)
  cache : SummaryCache F
  readers : List (Reader F)
  returned : List (Returned F)

inductive Move (F : Type)
  | append (path tenant : String) (gap : Nat) (body : Body F)
  | begin (path tenant : String)
  | query (k : Nat)
  | fail (k : Nat)
  | restart

def Reader.result (r : Reader F) (summary : ReceiptsSummary F) : Returned F :=
  ⟨r.path, r.tenant, r.hi, summary⟩

namespace System

variable (s : System F)

def start : System F := ⟨fun _ => [], ∅, [], []⟩

def setPhase (k : Nat) (r : Reader F) (phase : Phase F) : System F :=
  { s with readers := s.readers.set k { r with phase } }

def endRead (k : Nat) (r : Reader F) (summary : ReceiptsSummary F) : System F :=
  { s with readers := s.readers.eraseIdx k, returned := s.returned ++ [r.result summary] }

def insertCache (key : Key) (entry : Nat × ReceiptsSummary F) : System F :=
  let cache := if 4096 ≤ s.cache.entries.length then ∅ else s.cache
  { s with cache := cache.insert key entry }

/-- The next step of a read of `tenant_receipts_summary`. -/
def advance (k : Nat) (r : Reader F) : System F :=
  match r.phase with
  | .begun =>
    let cached := (s.cache.lookup (r.path, r.tenant)).filter fun c => c.1 ≤ r.hi
    let (after, base) := cached.getD (0, .default)
    if after = r.hi then s.endRead k r base else s.setPhase k r (.looked after base)
  | .looked after base =>
    s.setPhase k r (.aggregated after base
      (aggregateQuery (between (s.rows r.path) r.tenant after r.hi)))
  | .aggregated after base sum =>
    s.setPhase k r (.counted after base
      { sum with truncated := truncatedQuery (between (s.rows r.path) r.tenant after r.hi) })
  | .counted after base sum =>
    let sum := sum.addVerdicts (verdictsQuery (between (s.rows r.path) r.tenant after r.hi))
    s.setPhase k r (.folded (base.merged sum))
  | .folded total => (s.insertCache (r.path, r.tenant) (r.hi, total)).endRead k r total

def step : Move F → System F
  -- ids grow, and may skip
  | .append path tenant gap body =>
    let row : Row F := ⟨maxSeq (s.rows path) + 1 + gap, tenant, body⟩
    { s with rows := Function.update s.rows path (s.rows path ++ [row]) }
  | .begin path tenant =>
    let hi := maxSeq (ofTenant tenant (s.rows path))
    { s with readers := s.readers ++ [⟨path, tenant, hi, .begun⟩] }
  | .query k =>
    match s.readers[k]? with
    | none => s
    | some r => s.advance k r
  | .fail k => { s with readers := s.readers.eraseIdx k }
  | .restart => { s with cache := ∅, readers := [] }

def run (moves : List (Move F)) : System F := moves.foldl step s

end System

-- ---------------------------------------------------------------------------
-- From scratch
-- ---------------------------------------------------------------------------

/-- One receipt more. -/
def ReceiptsSummary.add (s : ReceiptsSummary F) (b : Body F) : ReceiptsSummary F where
  requests := s.requests + 1
  spentUsd := s.spentUsd + b.totalCostUsd.getD 0
  baselineUsd := s.baselineUsd + b.counterfactualBaselineUsd.getD 0
  firstPass := s.firstPass + if b.servedRung = some 0 then 1 else 0
  escalated := s.escalated + if 0 < b.escalations then 1 else 0
  gates i := s.gates i + b.verdicts.countP fun v => slot v = i
  truncated := s.truncated + b.attempts.countP AttemptBody.truncated

/-- The fold over the tenant's rows up to `hi`. -/
def summaryUpTo (rows : List (Row F)) (tenant : String) (hi : Nat) : ReceiptsSummary F :=
  (((ofTenant tenant rows).filter fun r => r.seq ≤ hi).map Row.body).foldl .add .default

-- ---------------------------------------------------------------------------
-- Summaries add up
-- ---------------------------------------------------------------------------

namespace ReceiptsSummary

instance : Zero (ReceiptsSummary F) := ⟨.default⟩

instance : Add (ReceiptsSummary F) := ⟨merged⟩

instance : AddCommMonoid (ReceiptsSummary F) where
  nsmul := nsmulRec
  add_assoc a b c := by
    ext <;> exact add_assoc ..
  zero_add a := by
    ext <;> exact zero_add _
  add_zero a := by
    ext <;> exact add_zero _
  add_comm a b := by
    ext <;> exact add_comm ..

/-- The summary of one receipt. -/
def ofBody (b : Body F) : ReceiptsSummary F := default.add b

theorem add_eq (s : ReceiptsSummary F) (b : Body F) : s.add b = s + ofBody b := by
  have hzero : ofBody b = (0 : ReceiptsSummary F).add b := rfl
  rw [hzero]
  ext
  · exact congrArg (s.requests + ·) (zero_add 1).symm
  · exact congrArg (s.spentUsd + ·) (zero_add _).symm
  · exact congrArg (s.baselineUsd + ·) (zero_add _).symm
  · exact congrArg (s.firstPass + ·) (zero_add _).symm
  · exact congrArg (s.escalated + ·) (zero_add _).symm
  · exact congrArg (s.gates _ + ·) (zero_add _).symm
  · exact congrArg (s.truncated + ·) (zero_add _).symm

theorem foldl_add (bodies : List (Body F)) (s : ReceiptsSummary F) :
    bodies.foldl add s = s + (bodies.map ofBody).sum := by
  induction bodies generalizing s with
  | nil => exact (add_zero s).symm
  | cons b bodies ih => rw [List.foldl_cons, ih, add_eq, List.map_cons, List.sum_cons, add_assoc]

end ReceiptsSummary

-- ---------------------------------------------------------------------------
-- The queries give the sum
-- ---------------------------------------------------------------------------

omit [AddCommMonoid F] in
theorem addVerdicts_gates (groups : List (Verdict × Nat)) (s : ReceiptsSummary F) (i : Fin 3) :
    (s.addVerdicts groups).gates i =
      s.gates i + ((groups.filter fun g => slot g.1 = i).map Prod.snd).sum := by
  unfold ReceiptsSummary.addVerdicts
  induction groups generalizing s with
  | nil => rfl
  | cons g groups ih =>
    rw [List.foldl_cons, ih]
    by_cases hslot : slot g.1 = i
    · subst hslot
      simp [Nat.add_assoc]
    · simp [hslot, Function.update_of_ne (Ne.symm hslot)]

omit [AddCommMonoid F] in
/-- The groups only change the counts of the verdicts. -/
theorem addVerdicts_eq (groups : List (Verdict × Nat)) (s : ReceiptsSummary F) :
    s.addVerdicts groups = { s with gates := (s.addVerdicts groups).gates } := by
  unfold ReceiptsSummary.addVerdicts
  induction groups generalizing s with
  | nil => rfl
  | cons g groups ih =>
    rw [List.foldl_cons, ih]

omit [AddCommMonoid F] in
theorem verdictsQuery_count (bodies : List (Body F)) (i : Fin 3) :
    (((verdictsQuery bodies).filter fun g => slot g.1 = i).map Prod.snd).sum =
      (bodies.flatMap Body.verdicts).countP fun v => slot v = i := by
  unfold verdictsQuery
  simp only [List.filter_map, List.map_map]
  exact List.sum_map_count_dedup_filter_eq_countP (fun v => decide (slot v = i)) _

/-- What the three queries make of the same rows. -/
def summaryOf (bodies : List (Body F)) : ReceiptsSummary F :=
  { aggregateQuery bodies with truncated := truncatedQuery bodies }.addVerdicts
    (verdictsQuery bodies)

theorem total_cons (x : Option F) (xs : List (Option F)) :
    total (x :: xs) = x.getD 0 + total xs := by
  cases x with
  | none => exact (zero_add _).symm
  | some x => rfl

theorem summaryOf_eq (bodies : List (Body F)) :
    summaryOf bodies = (bodies.map ReceiptsSummary.ofBody).sum := by
  have hgates (bodies : List (Body F)) (i : Fin 3) : (summaryOf bodies).gates i =
      (bodies.flatMap Body.verdicts).countP fun v => slot v = i := by
    unfold summaryOf
    rw [addVerdicts_gates, verdictsQuery_count]
    exact zero_add _
  have heq (bodies : List (Body F)) : summaryOf bodies =
      { aggregateQuery bodies with
        truncated := truncatedQuery bodies
        gates := fun i => (bodies.flatMap Body.verdicts).countP fun v => slot v = i } := by
    rw [← funext (hgates bodies)]
    exact addVerdicts_eq _ _
  induction bodies with
  | nil => rw [heq]; rfl
  | cons b bodies ih =>
    have hsum : (List.map ReceiptsSummary.ofBody (b :: bodies)).sum =
        (ReceiptsSummary.ofBody b).merged (summaryOf bodies) := by
      rw [ih]
      exact List.sum_cons
    rw [hsum, heq, heq]
    unfold ReceiptsSummary.ofBody ReceiptsSummary.add ReceiptsSummary.merged
    unfold ReceiptsSummary.default aggregateQuery truncatedQuery
    ext
    · exact Nat.add_comm ..
    · simp [total_cons]
    · simp [total_cons]
    · simp [List.countP_cons, Nat.add_comm]
    · simp [List.countP_cons, Nat.add_comm]
    · simp
    · simp

theorem summaryUpTo_eq (rows : List (Row F)) (tenant : String) (hi : Nat) :
    summaryUpTo rows tenant hi =
      (((ofTenant tenant rows).filter fun r => r.seq ≤ hi).map fun r =>
        ReceiptsSummary.ofBody r.body).sum := by
  unfold summaryUpTo
  rw [ReceiptsSummary.foldl_add, List.map_map]
  exact zero_add _

/-- The fold up to `hi` is the one up to `after`, with the rows in between. -/
theorem summaryUpTo_split (rows : List (Row F)) (tenant : String) (h : after ≤ hi) :
    summaryUpTo rows tenant hi =
      (summaryUpTo rows tenant after).merged (summaryOf (between rows tenant after hi)) := by
  have hperm := List.filter_append_perm (fun r : Row F => decide (r.seq ≤ after))
    ((ofTenant tenant rows).filter fun r => decide (r.seq ≤ hi))
  have hlow : ((ofTenant tenant rows).filter fun r => r.seq ≤ hi).filter
      (fun r => decide (r.seq ≤ after)) = (ofTenant tenant rows).filter fun r => r.seq ≤ after := by
    rw [List.filter_filter]
    refine List.filter_congr fun r _ => ?_
    rw [Bool.eq_iff_iff]
    simp only [Bool.and_eq_true, decide_eq_true_eq]
    omega
  have hhigh : ((ofTenant tenant rows).filter fun r => r.seq ≤ hi).filter
      (fun r => !decide (r.seq ≤ after)) =
      (ofTenant tenant rows).filter fun r => after < r.seq ∧ r.seq ≤ hi := by
    rw [List.filter_filter]
    refine List.filter_congr fun r _ => ?_
    rw [Bool.eq_iff_iff]
    simp only [Bool.and_eq_true, Bool.not_eq_true', decide_eq_true_eq, decide_eq_false_iff_not]
    omega
  rw [hlow, hhigh] at hperm
  rw [summaryUpTo_eq, ← (hperm.map _).sum_eq, List.map_append, List.sum_append, summaryUpTo_eq,
    summaryOf_eq, between, List.map_map]
  rfl

omit [AddCommMonoid F] in
theorem maxSeq_append (rows : List (Row F)) (row : Row F) :
    maxSeq (rows ++ [row]) = max (maxSeq rows) row.seq := by
  induction rows with
  | nil => simp [maxSeq]
  | cons r rows ih =>
    have htail : maxSeq (r :: rows ++ [row]) = max r.seq (maxSeq (rows ++ [row])) := rfl
    have hhead : maxSeq (r :: rows) = max r.seq (maxSeq rows) := rfl
    rw [htail, ih, hhead, max_assoc]

omit [AddCommMonoid F] in
theorem maxSeq_ofTenant (tenant : String) (rows : List (Row F)) :
    maxSeq (ofTenant tenant rows) ≤ maxSeq rows := by
  induction rows with
  | nil => exact le_rfl
  | cons r rows ih =>
    have hhead : maxSeq (r :: rows) = max r.seq (maxSeq rows) := rfl
    rw [hhead, ofTenant, List.filter_cons]
    split
    · exact max_le_max le_rfl ih
    · exact ih.trans (le_max_right _ _)

section append
variable {rows : List (Row F)} {row : Row F} {tenant : String}

omit [AddCommMonoid F] in
theorem between_append (h : hi < row.seq) :
    between (rows ++ [row]) tenant after hi = between rows tenant after hi := by
  have hout : ¬(after < row.seq ∧ row.seq ≤ hi) := by omega
  simp only [between, ofTenant, List.filter_append, List.map_append, List.filter_filter]
  simp [hout]

theorem summaryUpTo_append (h : hi < row.seq) :
    summaryUpTo (rows ++ [row]) tenant hi = summaryUpTo rows tenant hi := by
  have hout : ¬row.seq ≤ hi := by omega
  simp only [summaryUpTo, ofTenant, List.filter_append, List.map_append, List.filter_filter]
  simp [hout]

/-- The fold of a tenant's rows up to an id that has been given out. -/
structure Total (rows : List (Row F)) (tenant : String) (hi : Nat) (summary : ReceiptsSummary F) :
    Prop where
  given : hi ≤ maxSeq rows
  eq : summary = summaryUpTo rows tenant hi

theorem Total.append (h : Total rows tenant hi summary) (hrow : maxSeq rows < row.seq) :
    Total (rows ++ [row]) tenant hi summary where
  given := by
    rw [maxSeq_append]
    exact h.given.trans (le_max_left _ _)
  eq := by rw [summaryUpTo_append (lt_of_le_of_lt h.given hrow), h.eq]

end append

-- ---------------------------------------------------------------------------
-- The invariant
-- ---------------------------------------------------------------------------

/-- What a read has in hand, against the rows of its store. -/
def Phase.Sound (rows : List (Row F)) (tenant : String) (hi : Nat) : Phase F → Prop
  | .begun => hi ≤ maxSeq rows
  | .looked after base => hi ≤ maxSeq rows ∧ after ≤ hi ∧ Total rows tenant after base
  | .aggregated after base sum => hi ≤ maxSeq rows ∧ after ≤ hi ∧ Total rows tenant after base ∧
      sum = aggregateQuery (between rows tenant after hi)
  | .counted after base sum => hi ≤ maxSeq rows ∧ after ≤ hi ∧ Total rows tenant after base ∧
      sum = { aggregateQuery (between rows tenant after hi) with
        truncated := truncatedQuery (between rows tenant after hi) }
  | .folded total => Total rows tenant hi total

def Reader.Sound (rows : List (Row F)) (r : Reader F) : Prop := r.phase.Sound rows r.tenant r.hi

theorem Phase.Sound.append {phase : Phase F} (h : phase.Sound rows tenant hi)
    (hrow : maxSeq rows < row.seq) : phase.Sound (rows ++ [row]) tenant hi := by
  have hgiven (hhi : hi ≤ maxSeq rows) : hi ≤ maxSeq (rows ++ [row]) := by
    rw [maxSeq_append]
    exact hhi.trans (le_max_left _ _)
  cases phase with
  | begun => exact hgiven h
  | looked after base =>
    obtain ⟨hhi, hle, hbase⟩ := h
    exact ⟨hgiven hhi, hle, hbase.append hrow⟩
  | aggregated after base sum =>
    obtain ⟨hhi, hle, hbase, hsum⟩ := h
    refine ⟨hgiven hhi, hle, hbase.append hrow, ?_⟩
    rw [between_append (lt_of_le_of_lt hhi hrow), hsum]
  | counted after base sum =>
    obtain ⟨hhi, hle, hbase, hsum⟩ := h
    refine ⟨hgiven hhi, hle, hbase.append hrow, ?_⟩
    rw [between_append (lt_of_le_of_lt hhi hrow), hsum]
  | folded total => exact Total.append h hrow

namespace System

variable {s : System F}

structure Sound (s : System F) : Prop where
  positive : ∀ path, ∀ r ∈ s.rows path, 0 < r.seq
  cached : ∀ key c, s.cache.lookup key = some c → Total (s.rows key.1) key.2 c.1 c.2
  readers : ∀ r ∈ s.readers, r.Sound (s.rows r.path)
  returned : ∀ r ∈ s.returned, Total (s.rows r.path) r.tenant r.hi r.summary

theorem Sound.start : (start : System F).Sound where
  positive _ := by simp [System.start]
  cached _ c h := by simp [System.start] at h
  readers := by simp [System.start]
  returned := by simp [System.start]

/-- An append leaves the rows of a store, or adds one with a new id. -/
theorem rows_append (s : System F) (path tenant : String) (gap : Nat) (body : Body F)
    (other : String) : (s.step (.append path tenant gap body)).rows other = s.rows other ∨
      ∃ row : Row F, maxSeq (s.rows other) < row.seq ∧
        (s.step (.append path tenant gap body)).rows other = s.rows other ++ [row] := by
  by_cases heq : other = path
  · subst heq
    refine .inr ⟨⟨maxSeq (s.rows other) + 1 + gap, tenant, body⟩, ?_, by simp [step]⟩
    exact Nat.lt_of_lt_of_le (Nat.lt_succ_self _) (Nat.le_add_right _ _)
  · exact .inl (by simp [step, heq])

theorem Sound.appended (h : s.Sound) (path tenant : String) (gap : Nat) (body : Body F) :
    (s.step (.append path tenant gap body)).Sound where
  positive other r hr := by
    rcases rows_append s path tenant gap body other with heq | ⟨row, hrow, heq⟩
    · exact h.positive other r (heq ▸ hr)
    · rw [heq] at hr
      rcases List.mem_append.mp hr with hr | hr
      · exact h.positive other r hr
      · rw [List.mem_singleton.mp hr]
        omega
  cached key c hc := by
    rcases rows_append s path tenant gap body key.1 with heq | ⟨row, hrow, heq⟩ <;> rw [heq]
    · exact h.cached key c hc
    · exact (h.cached key c hc).append hrow
  readers r hr := by
    rcases rows_append s path tenant gap body r.path with heq | ⟨row, hrow, heq⟩ <;> rw [heq]
    · exact h.readers r hr
    · exact (h.readers r hr).append hrow
  returned r hr := by
    rcases rows_append s path tenant gap body r.path with heq | ⟨row, hrow, heq⟩ <;> rw [heq]
    · exact h.returned r hr
    · exact (h.returned r hr).append hrow

theorem Sound.setPhase (h : s.Sound) (hphase : phase.Sound (s.rows r.path) r.tenant r.hi) :
    (s.setPhase k r phase).Sound where
  positive := h.positive
  cached := h.cached
  readers r' hr' := by
    rcases List.mem_or_eq_of_mem_set hr' with hr' | rfl
    · exact h.readers r' hr'
    · exact hphase
  returned := h.returned

theorem Sound.endRead (h : s.Sound) (htotal : Total (s.rows r.path) r.tenant r.hi summary) :
    (s.endRead k r summary).Sound where
  positive := h.positive
  cached := h.cached
  readers r' hr' := h.readers r' (List.mem_of_mem_eraseIdx hr')
  returned r' hr' := by
    rcases List.mem_append.mp hr' with hr' | hr'
    · exact h.returned r' hr'
    · rw [List.mem_singleton.mp hr']
      exact htotal

theorem Sound.insertCache (h : s.Sound) (htotal : Total (s.rows key.1) key.2 hi summary) :
    (s.insertCache key (hi, summary)).Sound where
  positive := h.positive
  cached other c hc := by
    by_cases heq : other = key
    · subst heq
      rw [System.insertCache, AList.lookup_insert] at hc
      obtain rfl := Option.some.inj hc
      exact htotal
    · rw [System.insertCache, AList.lookup_insert_ne heq] at hc
      split at hc
      · rw [AList.lookup_empty] at hc
        cases hc
      · exact h.cached other c hc
  readers := h.readers
  returned := h.returned

/-- What a read starts from: the total that is cached, or nothing. -/
theorem Sound.base (h : s.Sound) (path tenant : String) (hi : Nat) :
    let c := ((s.cache.lookup (path, tenant)).filter fun c => c.1 ≤ hi).getD (0, .default)
    c.1 ≤ hi ∧ Total (s.rows path) tenant c.1 c.2 := by
  cases hc : (s.cache.lookup (path, tenant)).filter fun c => c.1 ≤ hi with
  | none =>
    refine ⟨Nat.zero_le hi, Nat.zero_le _, ?_⟩
    have hnone : (ofTenant tenant (s.rows path)).filter (fun r => decide (r.seq ≤ 0)) = [] := by
      refine List.filter_eq_nil_iff.mpr fun r hr => ?_
      have hpos := h.positive path r (List.mem_of_mem_filter hr)
      simp
      omega
    simp only [Option.getD_none, summaryUpTo, hnone]
    rfl
  | some c =>
    obtain ⟨hlookup, hle⟩ := Option.filter_eq_some_iff.mp hc
    exact ⟨by simpa using hle, h.cached (path, tenant) c hlookup⟩

theorem Sound.advance (h : s.Sound) (hr : r.Sound (s.rows r.path)) : (s.advance k r).Sound := by
  obtain ⟨path, tenant, hi, phase⟩ := r
  cases phase with
  | begun =>
    obtain ⟨hle, hbase⟩ := h.base path tenant hi
    simp only [System.advance]
    split
    · rename_i heq
      refine h.endRead ?_
      have hhi := hbase
      rw [heq] at hhi
      exact hhi
    · exact h.setPhase ⟨hr, hle, hbase⟩
  | looked after base =>
    obtain ⟨hhi, hle, hbase⟩ := hr
    exact h.setPhase ⟨hhi, hle, hbase, rfl⟩
  | aggregated after base sum =>
    obtain ⟨hhi, hle, hbase, hsum⟩ := hr
    refine h.setPhase ⟨hhi, hle, hbase, ?_⟩
    rw [hsum]
  | counted after base sum =>
    obtain ⟨hhi, hle, hbase, hsum⟩ := hr
    refine h.setPhase ⟨hhi, ?_⟩
    rw [summaryUpTo_split _ _ hle, hbase.eq, hsum]
    rfl
  | folded total =>
    have hcached : (s.insertCache (path, tenant) (hi, total)).Sound := h.insertCache hr
    exact hcached.endRead hr

theorem Sound.step (h : s.Sound) (m : Move F) : (s.step m).Sound := by
  cases m with
  | append path tenant gap body => exact h.appended path tenant gap body
  | begin path tenant =>
    refine ⟨h.positive, h.cached, fun r hr => ?_, h.returned⟩
    rcases List.mem_append.mp hr with hr | hr
    · exact h.readers r hr
    · rw [List.mem_singleton.mp hr]
      exact maxSeq_ofTenant tenant (s.rows path)
  | query k =>
    cases hr : s.readers[k]? with
    | none => simpa [System.step, hr] using h
    | some r =>
      simp only [System.step, hr]
      exact h.advance (h.readers r (List.mem_of_getElem? hr))
  | fail k =>
    exact ⟨h.positive, h.cached, fun r hr => h.readers r (List.mem_of_mem_eraseIdx hr), h.returned⟩
  | restart =>
    refine ⟨h.positive, fun key c hc => ?_, by simp [System.step], h.returned⟩
    simp [System.step] at hc

theorem Sound.run (h : s.Sound) (moves : List (Move F)) : (s.run moves).Sound := by
  induction moves generalizing s with
  | nil => exact h
  | cons m moves ih => exact ih (h.step m)

def receipt (cost : ℕ) : Body ℕ where
  totalCostUsd := some cost
  counterfactualBaselineUsd := none
  servedRung := some 0
  escalations := 1
  attempts := [⟨true, [.fail]⟩, ⟨false, [.pass, .pass]⟩]

/-- A read, then one that folds in a second row while a third comes in. -/
def twoReads : List (Move ℕ) :=
  [.append "db" "a" 0 (receipt 5), .begin "db" "a", .query 0, .query 0, .query 0, .query 0,
    .query 0, .append "db" "a" 3 (receipt 7), .begin "db" "a", .query 0, .query 0,
    .append "db" "a" 0 (receipt 9), .query 0, .query 0, .query 0]

end System

end Firstpass.Summary
