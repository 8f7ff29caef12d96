import Firstpass.Core.TraceDecode

/-!
# A trace is read back

A field that is left out is one its reader fills in with what was left out, so the text of a trace
is read as that trace.
-/

namespace Firstpass

open Json (Value Readable FloatText)

-- ---------------------------------------------------------------------------
-- What is written and read
-- ---------------------------------------------------------------------------

variable {F : Type} [F64 F]

def Finite (x : F) : Prop := (F64.text x).isSome

/-- The text of a finite float is read as that float. -/
def Texts.FloatsReadBack (tx : Texts F) : Prop :=
  ∀ x text, F64.text x = some text → tx.float text.text = some x

structure Features.Fits (f : Features) : Prop where
  version : f.version < 2 ^ 32
  promptTokenBucket : f.promptTokenBucket < 2 ^ 32
  toolCount : f.toolCount < 2 ^ 32
  sessionFailureCount : f.sessionFailureCount < 2 ^ 32
  difficultyHint : f.difficultyHint < 2 ^ 8
  hourBucket : f.hourBucket < 2 ^ 8

structure GateResult.Fits (g : GateResult F) : Prop where
  score : ∀ s ∈ g.score, Finite s.value
  costUsd : Finite g.costUsd
  ms : g.ms < 2 ^ 64

structure ProbeSignal.Fits (p : ProbeSignal F) : Prop where
  k : p.k < 2 ^ 32
  gatePassCount : p.gatePassCount < 2 ^ 32
  probeCostUsd : Finite p.probeCostUsd

structure ElasticDecision.Fits (e : ElasticDecision F) : Prop where
  signal : Finite e.signal
  lambda : Finite e.lambda
  alpha : ∀ x ∈ e.alpha, Finite x
  delta : ∀ x ∈ e.delta, Finite x

structure ShadowSignal.Fits (s : ShadowSignal F) : Prop where
  wouldServeRung : ∀ n ∈ s.wouldServeRung, n < 2 ^ 32
  projectedCostUsd : Finite s.projectedCostUsd
  actualCostUsd : Finite s.actualCostUsd

structure RolloutRecord.Fits (r : RolloutRecord F) : Prop where
  percent : Finite r.percent
  bucket : r.bucket < 2 ^ 32

structure ExperimentRecord.Fits (e : ExperimentRecord F) : Prop where
  percent : Finite e.percent
  bucket : e.bucket < 2 ^ 32

structure RiskCertificate.Fits (r : RiskCertificate F) : Prop where
  threshold : Finite r.threshold
  alpha : ∀ x ∈ r.alpha, Finite x
  delta : ∀ x ∈ r.delta, Finite x
  eValue : ∀ x ∈ r.eValue, Finite x
  certifiedAtRound : ∀ n ∈ r.certifiedAtRound, n < 2 ^ 64

structure PolicyRef.Fits (p : PolicyRef F) : Prop where
  propensity : ∀ x ∈ p.propensity, Finite x

structure Attempt.Fits (a : Attempt F) : Prop where
  rung : a.rung < 2 ^ 32
  inTokens : a.inTokens < 2 ^ 64
  cacheWriteTokens : a.cacheWriteTokens < 2 ^ 64
  cacheReadTokens : a.cacheReadTokens < 2 ^ 64
  outTokens : a.outTokens < 2 ^ 64
  costUsd : Finite a.costUsd
  latencyMs : a.latencyMs < 2 ^ 64
  gates : ∀ g ∈ a.gates, g.Fits

structure DeferredVerdict.Fits (tx : Texts F) (d : DeferredVerdict F) : Prop where
  score : ∀ s ∈ d.score, Finite s.value
  reportedAt : tx.timestamp d.reportedAt = some d.reportedAt

structure FinalOutcome.Fits (tx : Texts F) (f : FinalOutcome F) : Prop where
  servedRung : ∀ n ∈ f.servedRung, n < 2 ^ 32
  totalCostUsd : Finite f.totalCostUsd
  gateCostUsd : Finite f.gateCostUsd
  totalLatencyMs : f.totalLatencyMs < 2 ^ 64
  escalations : f.escalations < 2 ^ 32
  counterfactualBaselineUsd : Finite f.counterfactualBaselineUsd
  cacheSource : ∀ id ∈ f.cacheSource, tx.uuid id = some id
  savingsUsd : Finite f.savingsUsd

/-- The floats are finite, the integers fit their types, and the ids and timestamps are the texts
of such. -/
structure Trace.Fits (tx : Texts F) (t : Trace F) : Prop where
  traceId : tx.uuid t.traceId = some t.traceId
  ts : tx.timestamp t.ts = some t.ts
  policy : t.policy.Fits
  features : t.request.features.Fits
  attempts : ∀ a ∈ t.attempts, a.Fits
  deferred : ∀ d ∈ t.deferred, d.Fits tx
  final : t.final.Fits tx
  probe : ∀ p ∈ t.probe, p.Fits
  rollout : ∀ r ∈ t.rollout, r.Fits
  shadow : ∀ s ∈ t.shadow, s.Fits
  routeIx : ∀ n ∈ t.routeIx, n < 2 ^ 32
  predictedPass : ∀ x ∈ t.predictedPass, Finite x
  decisionPrior : ∀ xs ∈ t.decisionPrior, ∀ x ∈ xs, Finite x
  elastic : ∀ e ∈ t.elastic, e.Fits
  risk : ∀ r ∈ t.risk, r.Fits
  experiment : ∀ e ∈ t.experiment, e.Fits

-- ---------------------------------------------------------------------------
-- Fields are read back
-- ---------------------------------------------------------------------------

/-- What the reader of a struct finds in the fields it is given. -/
def Holds (fs : List (String × Value)) (fields : List (String × Option Value)) : Prop :=
  ∀ f ∈ fields, ∀ {α : Type} (dec : Option Value → Option α), readField fs f.1 dec = dec f.2

@[simp] theorem holds_nil : Holds fs [] := by simp [Holds]

@[simp] theorem holds_cons : Holds fs ((key, o) :: fields) ↔
    (∀ {α : Type} (dec : Option Value → Option α), readField fs key dec = dec o) ∧
      Holds fs fields := by
  simp [Holds]

theorem filter_written {fields : List (String × Option Value)} {key : String} {o : Option Value}
    (hn : (fields.map Prod.fst).Nodup) (h : (key, o) ∈ fields) :
    (fields.filterMap fun f => f.2.map (f.1, ·)).filter (fun f => f.1 = key) =
      (o.map (key, ·)).toList := by
  induction fields with
  | nil => cases h
  | cons f fs ih =>
    obtain ⟨hk, hfs⟩ : f.1 ∉ fs.map Prod.fst ∧ (fs.map Prod.fst).Nodup := List.nodup_cons.mp hn
    rcases List.mem_cons.mp h with rfl | hmem
    · have hrest : (fs.filterMap fun f => f.2.map (f.1, ·)).filter (fun f => f.1 = key) = [] := by
        refine List.filter_eq_nil_iff.mpr fun g hg hkey => hk ?_
        rw [← show g.1 = key from of_decide_eq_true hkey]
        exact (keys_record fs).subset (List.mem_map_of_mem hg)
      cases o with
      | none => simpa [List.filterMap_cons] using hrest
      | some v => simpa [List.filterMap_cons] using hrest
    · have hne : f.1 ≠ key := by
        intro hkey
        exact hk (hkey ▸ List.mem_map_of_mem (f := Prod.fst) hmem)
      obtain ⟨k, o'⟩ := f
      cases o' with
      | none => simpa [List.filterMap_cons] using ih hfs hmem
      | some v => simpa [List.filterMap_cons, show k ≠ key from hne] using ih hfs hmem

/-- The names of the fields are distinct, so each is read as it was written, and one that was
skipped as one that is not there. -/
theorem holds_record {v : Value} {fields : List (String × Option Value)} (hv : v = record fields)
    (hn : (fields.map Prod.fst).Nodup) : ∃ fs, fieldsOf v = some fs ∧ Holds fs fields := by
  refine ⟨_, by rw [hv]; rfl, ?_⟩
  rintro ⟨key, o⟩ hmem α dec
  have hfield : field (fields.filterMap fun f => f.2.map (f.1, ·)) key = some o := by
    rw [field, filter_written hn hmem]
    cases o <;> rfl
  rw [readField, hfield, Option.bind_some]

theorem bind_eq_some {α β : Type} {x : Option α} {k : α → Option β} {b : β} :
    (x >>= k) = some b ↔ ∃ a, x = some a ∧ k a = some b := Option.bind_eq_some_iff

section
variable {α : Type} {dec : Value → Option α} {enc : α → Value}

@[simp] theorem required_some (dec : Value → Option α) (v : Value) :
    required dec (some v) = dec v := rfl

theorem optional_map {o : Option α} (h : ∀ a ∈ o, dec (enc a) = some a ∧ enc a ≠ .null) :
    optional dec (o.map enc) = some o := by
  cases o with
  | none => rfl
  | some a =>
    obtain ⟨hdec, hnull⟩ := h a rfl
    rw [Option.map_some, optional.eq_def]
    split
    · contradiction
    · next hv => exact (hnull (Option.some.inj hv)).elim
    · next hv => rw [← Option.some.inj hv, hdec, Option.map_some]

@[simp] theorem orDefault_some (a : α) (dec : Value → Option α) (v : Value) :
    orDefault a dec (some v) = dec v := rfl

/-- What is left out is the default. -/
theorem orDefault_ite {c : Prop} [Decidable c] {a default : α} {v : Value} (hc : c → a = default)
    (ha : dec v = some a) : orDefault default dec (if c then none else some v) = some a := by
  split
  · next h => exact congrArg some (hc h).symm
  · exact ha

theorem arrayOf_map {xs : List α} (h : ∀ a ∈ xs, dec (enc a) = some a) :
    arrayOf dec (.array (xs.map enc)) = some xs := by
  show (xs.map enc).mapM dec = some xs
  induction xs with
  | nil => rfl
  | cons a xs ih =>
    have hxs := ih fun b hb => h b (List.mem_cons_of_mem a hb)
    simp [h a List.mem_cons_self, hxs]

end

@[simp] theorem stringOf_string (s : String) : stringOf (.string s) = some s := rfl

@[simp] theorem boolOf_bool (b : Bool) : boolOf (.bool b) = some b := rfl

theorem natOf_natValue {bits n : Nat} (h : n < 2 ^ bits) : natOf bits (natValue n) = some n :=
  if_pos h

@[simp] theorem optional_string (o : Option String) :
    optional stringOf (o.map .string) = some o :=
  optional_map fun s _ => ⟨stringOf_string s, by rintro ⟨⟩⟩

theorem optional_nat {bits : Nat} {o : Option Nat} (h : ∀ n ∈ o, n < 2 ^ bits) :
    optional (natOf bits) (o.map natValue) = some o :=
  optional_map fun n hn => ⟨natOf_natValue (h n hn), by rintro ⟨⟩⟩

theorem orDefault_skipZero {bits n : Nat} (h : n < 2 ^ bits) :
    orDefault 0 (natOf bits) (skipZero n) = some n :=
  orDefault_ite id (natOf_natValue h)

variable {tx : Texts F}

theorem floatOf_floatValue (htx : tx.FloatsReadBack) {x : F} (h : Finite x) :
    floatOf tx (floatValue x) = some x := by
  obtain ⟨text, htext⟩ := Option.isSome_iff_exists.mp h
  rw [floatValue, htext]
  exact htx x text htext

theorem floatValue_ne_null {x : F} (h : Finite x) : floatValue x ≠ .null := by
  obtain ⟨text, htext⟩ := Option.isSome_iff_exists.mp h
  rw [floatValue, htext]
  rintro ⟨⟩

theorem scoreOf_floatValue (htx : tx.FloatsReadBack) {s : Score F} (h : Finite s.value) :
    scoreOf tx (floatValue s.value) = some s := by
  rw [scoreOf, floatOf_floatValue htx h]
  exact dif_pos ⟨s.nonneg, s.le_one⟩

theorem optional_float (htx : tx.FloatsReadBack) {o : Option F} (h : ∀ x ∈ o, Finite x) :
    optional (floatOf tx) (o.map floatValue) = some o :=
  optional_map fun x hx => ⟨floatOf_floatValue htx (h x hx), floatValue_ne_null (h x hx)⟩

theorem optional_score (htx : tx.FloatsReadBack) {o : Option (Score F)}
    (h : ∀ s ∈ o, Finite s.value) :
    optional (scoreOf tx) (o.map fun s => floatValue s.value) = some o :=
  optional_map fun s hs => ⟨scoreOf_floatValue htx (h s hs), floatValue_ne_null (h s hs)⟩

omit [F64 F] in
theorem optional_uuid {o : Option String} (h : ∀ id ∈ o, tx.uuid id = some id) :
    optional (uuidOf tx) (o.map .string) = some o :=
  optional_map fun id hid => ⟨h id hid, by rintro ⟨⟩⟩

/-- A struct is an object, which is not `null`. -/
theorem optional_record {α : Type} {dec : Value → Option α} {enc : α → Value} {o : Option α}
    (h : ∀ a ∈ o, dec (enc a) = some a) (hrecord : ∀ a, ∃ fields, enc a = record fields) :
    optional dec (o.map enc) = some o :=
  optional_map fun a ha => ⟨h a ha, by
    obtain ⟨fields, hfields⟩ := hrecord a
    rw [hfields]
    rintro ⟨⟩⟩

-- ---------------------------------------------------------------------------
-- The parts are read back
-- ---------------------------------------------------------------------------

@[simp] theorem Verdict.ofValue_asStr (v : Verdict) :
    Verdict.ofValue (.string v.asStr) = some v := by
  cases v <;> rfl

@[simp] theorem Mode.ofValue_text (m : Mode) : Mode.ofValue (.string m.text) = some m := by
  cases m <;> rfl

@[simp] theorem TaskKind.ofValue_text (k : TaskKind) :
    TaskKind.ofValue (.string k.text) = some k := by
  cases k <;> rfl

@[simp] theorem ProbeRegime.ofValue_text (r : ProbeRegime) :
    ProbeRegime.ofValue (.string r.text) = some r := by
  cases r <;> rfl

@[simp] theorem ElasticAction.ofValue_text (a : ElasticAction) :
    ElasticAction.ofValue (.string a.text) = some a := by
  cases a <;> rfl

@[simp] theorem Arm.ofValue_text (a : Arm) : Arm.ofValue (.string a.text) = some a := by
  cases a <;> rfl

@[simp] theorem ThresholdSource.ofValue_text (s : ThresholdSource) :
    ThresholdSource.ofValue (.string s.text) = some s := by
  cases s <;> rfl

@[simp] theorem ServedFrom.ofValue_text (s : ServedFrom) :
    ServedFrom.ofValue (.string s.text) = some s := by
  cases s <;> rfl

theorem Features.ofValue_toValue {f : Features} (h : f.Fits) :
    Features.ofValue f.toValue = some f := by
  obtain ⟨fs, hfs, hread⟩ := holds_record (rfl : f.toValue = record _) (by simp)
  simp only [holds_cons] at hread
  rw [Features.ofValue]
  simp [-Bool.exists_bool, ↓bind_eq_some, hfs, hread,
    natOf_natValue h.version, natOf_natValue h.promptTokenBucket, natOf_natValue h.toolCount,
    natOf_natValue h.sessionFailureCount, orDefault_skipZero h.difficultyHint,
    natOf_natValue h.hourBucket]

theorem RequestInfo.ofValue_toValue {r : RequestInfo} (h : r.features.Fits) :
    RequestInfo.ofValue r.toValue = some r := by
  obtain ⟨fs, hfs, hread⟩ := holds_record (rfl : r.toValue = record _) (by simp)
  simp only [holds_cons] at hread
  rw [RequestInfo.ofValue]
  simp [↓bind_eq_some, hfs, hread,
    Features.ofValue_toValue h]

section
variable (htx : tx.FloatsReadBack)
include htx

theorem GateResult.ofValue_toValue {g : GateResult F} (h : g.Fits) :
    GateResult.ofValue tx g.toValue = some g := by
  obtain ⟨fs, hfs, hread⟩ := holds_record (rfl : g.toValue = record _) (by simp)
  simp only [holds_cons] at hread
  rw [GateResult.ofValue]
  simp [↓bind_eq_some, hfs, hread,
    optional_score htx h.score, floatOf_floatValue htx h.costUsd, natOf_natValue h.ms]

theorem ProbeSignal.ofValue_toValue {p : ProbeSignal F} (h : p.Fits) :
    ProbeSignal.ofValue tx p.toValue = some p := by
  obtain ⟨fs, hfs, hread⟩ := holds_record (rfl : p.toValue = record _) (by simp)
  simp only [holds_cons] at hread
  rw [ProbeSignal.ofValue]
  simp [↓bind_eq_some, hfs, hread,
    natOf_natValue h.k, natOf_natValue h.gatePassCount, floatOf_floatValue htx h.probeCostUsd]

theorem ElasticDecision.ofValue_toValue {e : ElasticDecision F} (h : e.Fits) :
    ElasticDecision.ofValue tx e.toValue = some e := by
  obtain ⟨fs, hfs, hread⟩ := holds_record (rfl : e.toValue = record _) (by simp)
  simp only [holds_cons] at hread
  rw [ElasticDecision.ofValue]
  simp [↓bind_eq_some, hfs, hread,
    floatOf_floatValue htx h.signal, floatOf_floatValue htx h.lambda,
    optional_float htx h.alpha, optional_float htx h.delta]

theorem ShadowSignal.ofValue_toValue {s : ShadowSignal F} (h : s.Fits) :
    ShadowSignal.ofValue tx s.toValue = some s := by
  obtain ⟨fs, hfs, hread⟩ := holds_record (rfl : s.toValue = record _) (by simp)
  simp only [holds_cons] at hread
  rw [ShadowSignal.ofValue]
  simp [-Bool.exists_bool, ↓bind_eq_some, hfs, hread,
    optional_nat h.wouldServeRung, floatOf_floatValue htx h.projectedCostUsd,
    floatOf_floatValue htx h.actualCostUsd]

theorem RolloutRecord.ofValue_toValue {r : RolloutRecord F} (h : r.Fits) :
    RolloutRecord.ofValue tx r.toValue = some r := by
  obtain ⟨fs, hfs, hread⟩ := holds_record (rfl : r.toValue = record _) (by simp)
  simp only [holds_cons] at hread
  rw [RolloutRecord.ofValue]
  simp [-Bool.exists_bool, ↓bind_eq_some, hfs, hread,
    floatOf_floatValue htx h.percent, natOf_natValue h.bucket]

theorem ExperimentRecord.ofValue_toValue {e : ExperimentRecord F} (h : e.Fits) :
    ExperimentRecord.ofValue tx e.toValue = some e := by
  obtain ⟨fs, hfs, hread⟩ := holds_record (rfl : e.toValue = record _) (by simp)
  simp only [holds_cons] at hread
  rw [ExperimentRecord.ofValue]
  simp [↓bind_eq_some, hfs, hread,
    floatOf_floatValue htx h.percent, natOf_natValue h.bucket]

theorem RiskCertificate.ofValue_toValue {r : RiskCertificate F} (h : r.Fits) :
    RiskCertificate.ofValue tx r.toValue = some r := by
  obtain ⟨fs, hfs, hread⟩ := holds_record (rfl : r.toValue = record _) (by simp)
  simp only [holds_cons] at hread
  rw [RiskCertificate.ofValue]
  simp [↓bind_eq_some, hfs, hread,
    floatOf_floatValue htx h.threshold, optional_float htx h.alpha, optional_float htx h.delta,
    optional_float htx h.eValue, optional_nat h.certifiedAtRound]

theorem PolicyRef.ofValue_toValue {p : PolicyRef F} (h : p.Fits) :
    PolicyRef.ofValue tx p.toValue = some p := by
  obtain ⟨fs, hfs, hread⟩ := holds_record (rfl : p.toValue = record _) (by simp)
  simp only [holds_cons] at hread
  rw [PolicyRef.ofValue]
  simp [-Bool.exists_bool, ↓bind_eq_some, hfs, hread,
    optional_float htx h.propensity]

theorem Attempt.ofValue_toValue {a : Attempt F} (h : a.Fits) :
    Attempt.ofValue tx a.toValue = some a := by
  have hgates : arrayOf (GateResult.ofValue tx) (.array (a.gates.map GateResult.toValue)) =
      some a.gates :=
    arrayOf_map fun g hg => GateResult.ofValue_toValue htx (h.gates g hg)
  have htruncated : orDefault false boolOf (if a.truncated then some (.bool true) else none) =
      some a.truncated := by
    cases a.truncated <;> rfl
  obtain ⟨fs, hfs, hread⟩ := holds_record (rfl : a.toValue = record _) (by simp)
  simp only [holds_cons] at hread
  rw [Attempt.ofValue]
  simp [-Bool.exists_bool, ↓bind_eq_some, hfs, hread,
    natOf_natValue h.rung, natOf_natValue h.inTokens, orDefault_skipZero h.cacheWriteTokens,
    orDefault_skipZero h.cacheReadTokens, natOf_natValue h.outTokens,
    floatOf_floatValue htx h.costUsd, natOf_natValue h.latencyMs, hgates, htruncated]

theorem DeferredVerdict.ofValue_toValue {d : DeferredVerdict F} (h : d.Fits tx) :
    DeferredVerdict.ofValue tx d.toValue = some d := by
  obtain ⟨fs, hfs, hread⟩ := holds_record (rfl : d.toValue = record _) (by simp)
  simp only [holds_cons] at hread
  rw [DeferredVerdict.ofValue]
  simp [↓bind_eq_some, hfs, hread,
    optional_score htx h.score, timestampOf, h.reportedAt]

theorem FinalOutcome.ofValue_toValue {f : FinalOutcome F} (h : f.Fits tx) :
    FinalOutcome.ofValue tx f.toValue = some f := by
  obtain ⟨fs, hfs, hread⟩ := holds_record (rfl : f.toValue = record _) (by simp)
  simp only [holds_cons] at hread
  rw [FinalOutcome.ofValue]
  simp [↓bind_eq_some, hfs, hread,
    optional_nat h.servedRung, floatOf_floatValue htx h.totalCostUsd,
    floatOf_floatValue htx h.gateCostUsd, natOf_natValue h.totalLatencyMs,
    natOf_natValue h.escalations, floatOf_floatValue htx h.counterfactualBaselineUsd,
    optional_uuid h.cacheSource, floatOf_floatValue htx h.savingsUsd]

theorem Trace.ofValue_toValue {t : Trace F} (h : t.Fits tx) :
    Trace.ofValue tx t.toValue = some t := by
  have hattempts : arrayOf (Attempt.ofValue tx) (.array (t.attempts.map Attempt.toValue)) =
      some t.attempts :=
    arrayOf_map fun a ha => Attempt.ofValue_toValue htx (h.attempts a ha)
  have hdeferred : orDefault [] (arrayOf (DeferredVerdict.ofValue tx))
      (if t.deferred = [] then none else some (.array (t.deferred.map DeferredVerdict.toValue))) =
      some t.deferred :=
    orDefault_ite id (arrayOf_map fun d hd => DeferredVerdict.ofValue_toValue htx (h.deferred d hd))
  have hprior : optional (arrayOf (floatOf tx))
      (t.decisionPrior.map fun ps => .array (ps.map floatValue)) = some t.decisionPrior :=
    optional_map fun ps hps => ⟨arrayOf_map fun x hx =>
      floatOf_floatValue htx (h.decisionPrior ps hps x hx), by rintro ⟨⟩⟩
  have hprobe : optional (ProbeSignal.ofValue tx) (t.probe.map ProbeSignal.toValue) =
      some t.probe :=
    optional_record (fun p hp => ProbeSignal.ofValue_toValue htx (h.probe p hp)) fun _ => ⟨_, rfl⟩
  have hrollout : optional (RolloutRecord.ofValue tx) (t.rollout.map RolloutRecord.toValue) =
      some t.rollout :=
    optional_record (fun r hr => RolloutRecord.ofValue_toValue htx (h.rollout r hr))
      fun _ => ⟨_, rfl⟩
  have hshadow : optional (ShadowSignal.ofValue tx) (t.shadow.map ShadowSignal.toValue) =
      some t.shadow :=
    optional_record (fun s hs => ShadowSignal.ofValue_toValue htx (h.shadow s hs))
      fun _ => ⟨_, rfl⟩
  have helastic : optional (ElasticDecision.ofValue tx) (t.elastic.map ElasticDecision.toValue) =
      some t.elastic :=
    optional_record (fun e he => ElasticDecision.ofValue_toValue htx (h.elastic e he))
      fun _ => ⟨_, rfl⟩
  have hrisk : optional (RiskCertificate.ofValue tx) (t.risk.map RiskCertificate.toValue) =
      some t.risk :=
    optional_record (fun r hr => RiskCertificate.ofValue_toValue htx (h.risk r hr))
      fun _ => ⟨_, rfl⟩
  have hexperiment : optional (ExperimentRecord.ofValue tx)
      (t.experiment.map ExperimentRecord.toValue) = some t.experiment :=
    optional_record (fun e he => ExperimentRecord.ofValue_toValue htx (h.experiment e he))
      fun _ => ⟨_, rfl⟩
  have hprovider : orDefault "" stringOf
      (if t.upstreamProvider = "" then none else some (.string t.upstreamProvider)) =
      some t.upstreamProvider :=
    orDefault_ite id (stringOf_string _)
  obtain ⟨fs, hfs, hread⟩ := holds_record (rfl : t.toValue = record _) t.keys_nodup
  simp only [Trace.fields, holds_cons] at hread
  rw [Trace.ofValue]
  simp [↓bind_eq_some, hfs, hread, uuidOf, timestampOf, h.traceId, h.ts,
    PolicyRef.ofValue_toValue htx h.policy, RequestInfo.ofValue_toValue h.features,
    FinalOutcome.ofValue_toValue htx h.final, optional_nat h.routeIx,
    optional_float htx h.predictedPass, hattempts, hdeferred, hprior, hprobe, hrollout, hshadow,
    helastic, hrisk, hexperiment, hprovider]

end

-- ---------------------------------------------------------------------------
-- The text is read back
-- ---------------------------------------------------------------------------

def FieldReadable (tx : Texts F) (depth : Nat) (o : Option Value) : Prop :=
  ∀ v ∈ o, Readable tx.floatText depth v

section
variable {depth : Nat}

theorem readable_record {fields : List (String × Option Value)}
    (h : ∀ f ∈ fields, FieldReadable tx depth f.2) :
    Readable tx.floatText (depth + 1) (record fields) := by
  intro f hf
  obtain ⟨⟨k, o⟩, hmem, hv⟩ := List.mem_filterMap.mp hf
  obtain ⟨v, ho, rfl⟩ := Option.map_eq_some_iff.mp hv
  exact h (k, o) hmem v ho

theorem readable_array {α : Type} {enc : α → Value} {xs : List α}
    (h : ∀ x ∈ xs, Readable tx.floatText depth (enc x)) :
    Readable tx.floatText (depth + 1) (.array (xs.map enc)) := by
  intro v hv
  obtain ⟨x, hx, rfl⟩ := List.mem_map.mp hv
  exact h x hx

@[simp] theorem readable_string (s : String) : Readable tx.floatText depth (.string s) := by
  cases depth <;> trivial

@[simp] theorem readable_bool (b : Bool) : Readable tx.floatText depth (.bool b) := by
  cases depth <;> trivial

theorem readable_natValue {n : Nat} (h : n < 2 ^ 64) :
    Readable tx.floatText depth (natValue n) := by
  cases depth <;> exact h

theorem readable_nat32 {n : Nat} (h : n < 2 ^ 32) : Readable tx.floatText depth (natValue n) :=
  readable_natValue (h.trans (by decide))

theorem readable_nat8 {n : Nat} (h : n < 2 ^ 8) : Readable tx.floatText depth (natValue n) :=
  readable_natValue (h.trans (by decide))

theorem readable_floatValue (htx : tx.FloatsReadBack) {x : F} (h : Finite x) :
    Readable tx.floatText depth (floatValue x) := by
  obtain ⟨text, htext⟩ := Option.isSome_iff_exists.mp h
  have hfits : tx.floatText text.text = some text := by
    rw [Texts.floatText, htx x text htext]
    exact htext
  rw [floatValue, htext]
  cases depth <;> exact hfits

@[simp] theorem fieldReadable_some {v : Value} :
    FieldReadable tx depth (some v) ↔ Readable tx.floatText depth v := by simp [FieldReadable]

@[simp] theorem fieldReadable_none : FieldReadable tx depth none := by simp [FieldReadable]

theorem fieldReadable_map {α : Type} {o : Option α} {enc : α → Value}
    (h : ∀ a ∈ o, Readable tx.floatText depth (enc a)) : FieldReadable tx depth (o.map enc) := by
  intro v hv
  obtain ⟨a, ha, rfl⟩ := Option.map_eq_some_iff.mp hv
  exact h a ha

@[simp] theorem fieldReadable_string (o : Option String) :
    FieldReadable tx depth (o.map .string) :=
  fieldReadable_map fun s _ => readable_string s

theorem fieldReadable_ite {c : Prop} [Decidable c] {o : Option Value}
    (h : FieldReadable tx depth o) : FieldReadable tx depth (if c then none else o) := by
  split
  · exact fieldReadable_none
  · exact h

theorem fieldReadable_skipZero {n : Nat} (h : n < 2 ^ 64) :
    FieldReadable tx depth (skipZero n) :=
  fieldReadable_ite (fieldReadable_some.mpr (readable_natValue h))

theorem Features.Fits.readable {f : Features} (h : f.Fits) :
    Readable tx.floatText (depth + 1) f.toValue := by
  have hhint : f.difficultyHint < 2 ^ 64 := h.difficultyHint.trans (by decide)
  exact readable_record (by
    simp [readable_nat32 h.version, readable_nat32 h.promptTokenBucket, readable_nat32 h.toolCount,
      readable_nat32 h.sessionFailureCount, fieldReadable_skipZero hhint,
      readable_nat8 h.hourBucket])

theorem RequestInfo.readable {r : RequestInfo} (h : r.features.Fits) :
    Readable tx.floatText (depth + 2) r.toValue :=
  readable_record (by simp [h.readable])

section
variable (htx : tx.FloatsReadBack)
include htx

theorem fieldReadable_float {o : Option F} (h : ∀ x ∈ o, Finite x) :
    FieldReadable tx depth (o.map floatValue) :=
  fieldReadable_map fun x hx => readable_floatValue htx (h x hx)

theorem fieldReadable_score {o : Option (Score F)} (h : ∀ s ∈ o, Finite s.value) :
    FieldReadable tx depth (o.map fun s => floatValue s.value) :=
  fieldReadable_map fun s hs => readable_floatValue htx (h s hs)

theorem GateResult.Fits.readable {g : GateResult F} (h : g.Fits) :
    Readable tx.floatText (depth + 1) g.toValue :=
  readable_record (by
    simp [fieldReadable_score htx h.score, readable_floatValue htx h.costUsd,
      readable_natValue h.ms])

theorem ProbeSignal.Fits.readable {p : ProbeSignal F} (h : p.Fits) :
    Readable tx.floatText (depth + 1) p.toValue :=
  readable_record (by
    simp [readable_nat32 h.k, readable_nat32 h.gatePassCount,
      readable_floatValue htx h.probeCostUsd])

theorem ElasticDecision.Fits.readable {e : ElasticDecision F} (h : e.Fits) :
    Readable tx.floatText (depth + 1) e.toValue :=
  readable_record (by
    simp [readable_floatValue htx h.signal, readable_floatValue htx h.lambda,
      fieldReadable_float htx h.alpha, fieldReadable_float htx h.delta])

theorem ShadowSignal.Fits.readable {s : ShadowSignal F} (h : s.Fits) :
    Readable tx.floatText (depth + 1) s.toValue := by
  have hrung : FieldReadable tx depth (s.wouldServeRung.map natValue) :=
    fieldReadable_map fun n hn => readable_nat32 (h.wouldServeRung n hn)
  exact readable_record (by
    simp [hrung, readable_floatValue htx h.projectedCostUsd,
      readable_floatValue htx h.actualCostUsd])

theorem RolloutRecord.Fits.readable {r : RolloutRecord F} (h : r.Fits) :
    Readable tx.floatText (depth + 1) r.toValue :=
  readable_record (by simp [readable_floatValue htx h.percent, readable_nat32 h.bucket])

theorem ExperimentRecord.Fits.readable {e : ExperimentRecord F} (h : e.Fits) :
    Readable tx.floatText (depth + 1) e.toValue :=
  readable_record (by simp [readable_floatValue htx h.percent, readable_nat32 h.bucket])

theorem RiskCertificate.Fits.readable {r : RiskCertificate F} (h : r.Fits) :
    Readable tx.floatText (depth + 1) r.toValue := by
  have hround : FieldReadable tx depth (r.certifiedAtRound.map natValue) :=
    fieldReadable_map fun n hn => readable_natValue (h.certifiedAtRound n hn)
  exact readable_record (by
    simp [readable_floatValue htx h.threshold, fieldReadable_float htx h.alpha,
      fieldReadable_float htx h.delta, fieldReadable_float htx h.eValue, hround])

theorem PolicyRef.Fits.readable {p : PolicyRef F} (h : p.Fits) :
    Readable tx.floatText (depth + 1) p.toValue :=
  readable_record (by simp [fieldReadable_float htx h.propensity])

theorem Attempt.Fits.readable {a : Attempt F} (h : a.Fits) :
    Readable tx.floatText (depth + 3) a.toValue := by
  have hgates : Readable tx.floatText (depth + 2) (.array (a.gates.map GateResult.toValue)) :=
    readable_array fun g hg => (h.gates g hg).readable htx
  have htruncated : FieldReadable tx (depth + 2)
      (if a.truncated then some (.bool true) else none) := by
    cases a.truncated <;> simp
  exact readable_record (by
    simp [readable_nat32 h.rung, readable_natValue h.inTokens,
      fieldReadable_skipZero h.cacheWriteTokens, fieldReadable_skipZero h.cacheReadTokens,
      readable_natValue h.outTokens, readable_floatValue htx h.costUsd,
      readable_natValue h.latencyMs, hgates, htruncated])

theorem DeferredVerdict.Fits.readable {d : DeferredVerdict F} (h : d.Fits tx) :
    Readable tx.floatText (depth + 1) d.toValue :=
  readable_record (by simp [fieldReadable_score htx h.score])

theorem FinalOutcome.Fits.readable {f : FinalOutcome F} (h : f.Fits tx) :
    Readable tx.floatText (depth + 1) f.toValue := by
  have hrung : FieldReadable tx depth (f.servedRung.map natValue) :=
    fieldReadable_map fun n hn => readable_nat32 (h.servedRung n hn)
  exact readable_record (by
    simp [hrung, readable_floatValue htx h.totalCostUsd, readable_floatValue htx h.gateCostUsd,
      readable_natValue h.totalLatencyMs, readable_nat32 h.escalations,
      readable_floatValue htx h.counterfactualBaselineUsd, readable_floatValue htx h.savingsUsd])

/-- The gates of an attempt are the deepest: five objects and arrays inside each other. -/
theorem Trace.Fits.readable {t : Trace F} (h : t.Fits tx) :
    Readable tx.floatText (depth + 5) t.toValue := by
  have hattempts : Readable tx.floatText (depth + 4) (.array (t.attempts.map Attempt.toValue)) :=
    readable_array fun a ha => (h.attempts a ha).readable htx
  have hdeferred : Readable tx.floatText (depth + 4)
      (.array (t.deferred.map DeferredVerdict.toValue)) :=
    readable_array fun d hd => (h.deferred d hd).readable htx
  have hrequest : Readable tx.floatText (depth + 4) t.request.toValue :=
    RequestInfo.readable h.features
  have hpriors : FieldReadable tx (depth + 4)
      (t.decisionPrior.map fun ps => .array (ps.map floatValue)) :=
    fieldReadable_map fun ps hps => readable_array fun x hx =>
      readable_floatValue htx (h.decisionPrior ps hps x hx)
  have hrouteIx : FieldReadable tx (depth + 4) (t.routeIx.map natValue) :=
    fieldReadable_map fun n hn => readable_nat32 (h.routeIx n hn)
  have hprobe : FieldReadable tx (depth + 4) (t.probe.map ProbeSignal.toValue) :=
    fieldReadable_map fun p hp => (h.probe p hp).readable htx
  have hrollout : FieldReadable tx (depth + 4) (t.rollout.map RolloutRecord.toValue) :=
    fieldReadable_map fun r hr => (h.rollout r hr).readable htx
  have hshadow : FieldReadable tx (depth + 4) (t.shadow.map ShadowSignal.toValue) :=
    fieldReadable_map fun s hs => (h.shadow s hs).readable htx
  have helastic : FieldReadable tx (depth + 4) (t.elastic.map ElasticDecision.toValue) :=
    fieldReadable_map fun e he => (h.elastic e he).readable htx
  have hrisk : FieldReadable tx (depth + 4) (t.risk.map RiskCertificate.toValue) :=
    fieldReadable_map fun r hr => (h.risk r hr).readable htx
  have hexperiment : FieldReadable tx (depth + 4) (t.experiment.map ExperimentRecord.toValue) :=
    fieldReadable_map fun e he => (h.experiment e he).readable htx
  exact readable_record (by
    simp [Trace.fields, hattempts, fieldReadable_ite, hdeferred, hpriors, hrouteIx, hprobe,
      hrollout, hshadow, helastic, hrisk, hexperiment, h.policy.readable htx,
      hrequest, h.final.readable htx, fieldReadable_float htx h.predictedPass])

/-- The text of a trace is read as that trace. -/
theorem Trace.fromStr_toText {t : Trace F} (h : t.Fits tx) :
    Trace.fromStr tx t.toText = some t := by
  have hreadable : Readable tx.floatText (122 + 5) t.toValue := h.readable htx
  have hread : Json.fromStr tx.floatText t.toText = some t.toValue := Json.fromStr_print hreadable
  rw [Trace.fromStr, hread, Option.bind_some]
  exact Trace.ofValue_toValue htx h

end

theorem Trace.Fits.withPrevHash {t : Trace F} (h : t.Fits tx) (prevHash : String) :
    (t.withPrevHash prevHash).Fits tx :=
  ⟨h.traceId, h.ts, h.policy, h.features, h.attempts, h.deferred, h.final, h.probe, h.rollout,
    h.shadow, h.routeIx, h.predictedPass, h.decisionPrior, h.elastic, h.risk, h.experiment⟩

end

end Firstpass
