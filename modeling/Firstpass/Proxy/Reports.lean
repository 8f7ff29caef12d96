import Firstpass.Proxy.ConfigParse
import Firstpass.Proxy.ReceiptExport

/-!
# Reports over receipts

What is added up over the receipts of a tenant, and why one of them was served where it was, each
with the JSON it is written as.
-/

namespace Firstpass.Reports

open Json (Value)
open ReceiptExport (VerifyReport)

variable {F : Type} [F64 F]

/-- `BTreeMap::entry` with a default, and what becomes of it. -/
def entry {α β : Type} [LT α] [DecidableLT α] [DecidableEq α] (key : α) (default : β) (f : β → β) :
    List (α × β) → List (α × β)
  | [] => [(key, f default)]
  | (k, v) :: rest =>
    if key < k then (key, f default) :: (k, v) :: rest
    else if key = k then (k, f v) :: rest
    else (k, v) :: entry key default f rest

-- ---------------------------------------------------------------------------
-- Savings
-- ---------------------------------------------------------------------------

structure SavingsSummary (F : Type) where
  traces : Nat
  enforceTraces : Nat
  spentUsd : F
  gateUsd : F
  baselineUsd : F
  savingsUsd : F
  savingsPct : F

def summarizeSavings (traces : List (Trace F)) : SavingsSummary F :=
  let spent := F64.sum (traces.map fun t => t.final.totalCostUsd)
  let baseline := F64.sum (traces.map fun t => t.final.counterfactualBaselineUsd)
  { traces := traces.length
    enforceTraces := traces.countP fun t => t.mode = .enforce
    spentUsd := spent
    gateUsd := F64.sum (traces.map fun t => t.final.gateCostUsd)
    baselineUsd := baseline
    savingsUsd := baseline - spent
    savingsPct := if 0 < baseline then (baseline - spent) / baseline else 0 }

def SavingsSummary.toValue (s : SavingsSummary F) : Value := record
  [("traces", some (natValue s.traces)), ("enforce_traces", some (natValue s.enforceTraces)),
    ("spent_usd", some (floatValue s.spentUsd)), ("gate_usd", some (floatValue s.gateUsd)),
    ("baseline_usd", some (floatValue s.baselineUsd)),
    ("savings_usd", some (floatValue s.savingsUsd)),
    ("savings_pct", some (floatValue s.savingsPct))]

-- ---------------------------------------------------------------------------
-- Evals
-- ---------------------------------------------------------------------------

/-- Passes, failures and abstentions. -/
abbrev Tally := Nat × Nat × Nat

def Tally.add (t : Tally) : Verdict → Tally
  | .pass => (t.1 + 1, t.2.1, t.2.2)
  | .fail => (t.1, t.2.1 + 1, t.2.2)
  | .abstain => (t.1, t.2.1, t.2.2 + 1)

structure EvalsSummary where
  enforceTraces : Nat
  escalations : Nat
  gates : List (String × Tally)
  servedByRung : List (Nat × Nat)

def EvalsSummary.add (s : EvalsSummary) (t : Trace F) : EvalsSummary where
  enforceTraces := s.enforceTraces + 1
  escalations := s.escalations + t.final.escalations
  gates := (t.attempts.flatMap Attempt.gates).foldl
    (fun gates g => entry g.gateId (0, 0, 0) (Tally.add · g.verdict) gates) s.gates
  servedByRung :=
    match t.final.servedRung with
    | some rung => entry rung 0 (· + 1) s.servedByRung
    | none => s.servedByRung

def summarizeEvals (traces : List (Trace F)) : EvalsSummary :=
  (traces.filter fun t => t.mode = .enforce).foldl EvalsSummary.add ⟨0, 0, [], []⟩

def EvalsSummary.toValue (s : EvalsSummary) : Value := record
  [("enforce_traces", some (natValue s.enforceTraces)),
    ("escalations", some (natValue s.escalations)),
    ("gates", some (.object (s.gates.map fun g =>
      (g.1, .array [natValue g.2.1, natValue g.2.2.1, natValue g.2.2.2])))),
    ("served_by_rung", some (.object (s.servedByRung.map fun r =>
      (toString r.1, natValue r.2))))]

-- ---------------------------------------------------------------------------
-- One decision
-- ---------------------------------------------------------------------------

structure AttemptExplanation where
  rung : Nat
  model : String
  verdict : String
  gates : List (String × String)

structure RouteExplanation (F : Type) where
  traceId : String
  mode : String
  policy : String
  servedModel : Option String
  servedRung : Option Nat
  escalations : Nat
  totalCostUsd : F
  baselineUsd : F
  savingsUsd : F
  attempts : List AttemptExplanation
  summary : String

def explainAttempt (a : Attempt F) : AttemptExplanation :=
  ⟨a.rung, a.model, a.verdict.asStr, a.gates.map fun g => (g.gateId, g.verdict.asStr)⟩

def explainTrace (std : StdLib F) (t : Trace F) : RouteExplanation F :=
  let servedModel := t.final.servedRung.bind fun r =>
    (t.attempts.find? fun a => a.rung = r).map Attempt.model
  { traceId := t.traceId
    mode := t.mode.text
    policy := t.policy.id
    servedModel := servedModel
    servedRung := t.final.servedRung
    escalations := t.final.escalations
    totalCostUsd := t.final.totalCostUsd
    baselineUsd := t.final.counterfactualBaselineUsd
    savingsUsd := t.final.savingsUsd
    attempts := t.attempts.map explainAttempt
    summary :=
      match servedModel with
      | some m =>
        "served " ++ m ++ " at rung " ++ toString (t.final.servedRung.getD 0) ++ " after " ++
          toString t.final.escalations ++ " escalation(s); spent $" ++
          std.fixed 4 t.final.totalCostUsd ++ " vs $" ++
          std.fixed 4 t.final.counterfactualBaselineUsd ++ " always-top (saved $" ++
          std.fixed 4 t.final.savingsUsd ++ ")"
      | none => "no rung served (all attempts failed the gate or errored)" }

/-- A field that is written where it is absent too. -/
def orNull (v : Option Value) : Option Value := some (v.getD .null)

def AttemptExplanation.toValue (a : AttemptExplanation) : Value := record
  [("rung", some (natValue a.rung)), ("model", some (.string a.model)),
    ("verdict", some (.string a.verdict)),
    ("gates", some (.array (a.gates.map fun g => .array [.string g.1, .string g.2])))]

def RouteExplanation.toValue (e : RouteExplanation F) : Value := record
  [("trace_id", some (.string e.traceId)), ("mode", some (.string e.mode)),
    ("policy", some (.string e.policy)), ("served_model", orNull (e.servedModel.map .string)),
    ("served_rung", orNull (e.servedRung.map natValue)),
    ("escalations", some (natValue e.escalations)),
    ("total_cost_usd", some (floatValue e.totalCostUsd)),
    ("baseline_usd", some (floatValue e.baselineUsd)),
    ("savings_usd", some (floatValue e.savingsUsd)),
    ("attempts", some (.array (e.attempts.map AttemptExplanation.toValue))),
    ("summary", some (.string e.summary))]

def verifyValue (r : VerifyReport) : Value := record
  [("receipts", some (natValue r.receipts)), ("valid", some (.bool r.valid)),
    ("broken_at", r.brokenAt.map natValue), ("detail", r.detail.map .string)]

end Firstpass.Reports
