import Firstpass.Core.Guardrail
import Mathlib.Data.Int.Init
import Mathlib.Logic.Function.Basic

/-!
# Guardrail state

A trailing window of outcomes and a demotion deadline for each tenant and route.
-/

namespace Firstpass.Guard

variable {F : Type} [Field F] [LinearOrder F] [Analytic F]

inductive Reaction (F : Type)
  | none
  | demoted (verdict : GuardrailVerdict F)
  | alarmed (verdict : GuardrailVerdict F)

structure RouteState where
  outcomes : List Bool
  demotedUntil : Option Int

def RouteState.default : RouteState := ⟨[], none⟩

/-- A tenant and a route. -/
abbrev Key := String × Nat

structure GuardrailRegistry where
  inner : Key → Option RouteState

def GuardrailRegistry.new : GuardrailRegistry := ⟨fun _ => none⟩

/-- `i64` addition, which wraps around in a release build. -/
def addSecs (nowSecs cooldownSecs : Int) : Int := (nowSecs + cooldownSecs).bmod (2 ^ 64)

def RouteState.isDemoted (st : RouteState) (nowSecs : Int) : Bool :=
  st.demotedUntil.any fun deadline => nowSecs < deadline

def GuardrailRegistry.isDemoted (g : GuardrailRegistry) (key : Key) (nowSecs : Int) : Bool :=
  (g.inner key).any fun st => st.isDemoted nowSecs

/-- The arguments of `record` beside the key. -/
structure Resolved (F : Type) where
  cfg : Guardrail F
  wasCorrect : Bool
  nowSecs : Int
  cooldownSecs : Int

/-- `push_back`, then `pop_front` down to the configured window. -/
def RouteState.push (st : RouteState) (window : Nat) (wasCorrect : Bool) : RouteState :=
  let outcomes := st.outcomes ++ [wasCorrect]
  { st with outcomes := outcomes.drop (outcomes.length - window) }

/-- `record` on the state of its key. -/
def RouteState.record (st : RouteState) (r : Resolved F) : RouteState × Reaction F :=
  let st := st.push r.cfg.window r.wasCorrect
  -- Already demoted: evidence accumulates, but nothing fires again.
  if st.isDemoted r.nowSecs then (st, .none)
  else
    let verdict := r.cfg.evaluate st.outcomes
    if !verdict.breached then (st, .none)
    else
      match r.cfg.action with
      | .demote => (⟨[], some (addSecs r.nowSecs r.cooldownSecs)⟩, .demoted verdict)
      | .alarm => (st, .alarmed verdict)

def GuardrailRegistry.record (g : GuardrailRegistry) (key : Key) (r : Resolved F) :
    GuardrailRegistry × Reaction F :=
  let (st, reaction) := ((g.inner key).getD .default).record r
  (⟨Function.update g.inner key (some st)⟩, reaction)

def GuardrailRegistry.reset (g : GuardrailRegistry) (key : Key) : GuardrailRegistry :=
  match g.inner key with
  | some _ => ⟨Function.update g.inner key (some .default)⟩
  | none => g

-- ---------------------------------------------------------------------------
-- Runs
-- ---------------------------------------------------------------------------

inductive Call (F : Type)
  | record (key : Key) (r : Resolved F)
  | reset (key : Key)

def Call.key : Call F → Key
  | .record key _ => key
  | .reset key => key

def GuardrailRegistry.call (g : GuardrailRegistry) : Call F → GuardrailRegistry × Reaction F
  | .record key r => g.record key r
  | .reset key => (g.reset key, .none)

/-- The registry after a run of calls on a fresh one. -/
def after (calls : List (Call F)) : GuardrailRegistry :=
  calls.foldl (fun g c => (g.call c).1) .new

/-- What a call returns after a run. -/
def reaction (calls : List (Call F)) (c : Call F) : Reaction F := ((after calls).call c).2

/-- The state of a key; one never recorded is as fresh as an empty one. -/
def GuardrailRegistry.state (g : GuardrailRegistry) (key : Key) : RouteState :=
  (g.inner key).getD .default

/-- The times of the records of a run. -/
def times (calls : List (Call F)) : List Int :=
  calls.filterMap fun
    | .record _ r => some r.nowSecs
    | .reset _ => none

/-- The clock of a run never goes back. -/
def Clock (calls : List (Call F)) : Prop := (times calls).Pairwise (· ≤ ·)

/-- The number of records of a key. -/
def records (key : Key) (calls : List (Call F)) : Nat :=
  calls.countP fun
    | .record key' _ => key' = key
    | .reset _ => false

omit [Field F] [LinearOrder F] [Analytic F] in
theorem records_append (key : Key) (calls : List (Call F)) (c : Call F) :
    records key (calls ++ [c]) = records key calls + records key [c] := List.countP_append

omit [Field F] [LinearOrder F] [Analytic F] in
theorem records_record (key key' : Key) (r : Resolved F) :
    records key [.record key' r] = if key' = key then 1 else 0 := by
  simp [records]

theorem after_append (calls : List (Call F)) (c : Call F) :
    after (calls ++ [c]) = ((after calls).call c).1 := List.foldl_append

@[simp] theorem isDemoted_state (g : GuardrailRegistry) (key : Key) (now : Int) :
    g.isDemoted key now = (g.state key).isDemoted now := by
  unfold GuardrailRegistry.isDemoted GuardrailRegistry.state
  cases g.inner key <;> rfl

theorem state_record (g : GuardrailRegistry) (key key' : Key) (r : Resolved F) :
    (g.record key' r).1.state key =
      if key' = key then ((g.state key).record r).1 else g.state key := by
  unfold GuardrailRegistry.record GuardrailRegistry.state
  by_cases hkey : key' = key
  · subst hkey
    simp
  · simp [hkey, Function.update_of_ne (Ne.symm hkey)]

theorem state_reset (g : GuardrailRegistry) (key key' : Key) :
    (g.reset key').state key = if key' = key then .default else g.state key := by
  unfold GuardrailRegistry.reset GuardrailRegistry.state
  by_cases hkey : key' = key
  · subst hkey
    cases h : g.inner key' <;> simp [h]
  · cases h : g.inner key' <;> simp [hkey, Function.update_of_ne (Ne.symm hkey)]

theorem reaction_record (calls : List (Call F)) (key : Key) (r : Resolved F) :
    reaction calls (.record key r) = (((after calls).state key).record r).2 := rfl

-- ---------------------------------------------------------------------------
-- One record
-- ---------------------------------------------------------------------------

/-- What one record does to the state of its key. -/
inductive Recorded (st : RouteState) (r : Resolved F) : RouteState × Reaction F → Prop
  | held (h : st.isDemoted r.nowSecs) : Recorded st r (st.push r.cfg.window r.wasCorrect, .none)
  | quiet (h : st.isDemoted r.nowSecs = false) :
      Recorded st r (st.push r.cfg.window r.wasCorrect, .none)
  | demoted (h : st.isDemoted r.nowSecs = false) (haction : r.cfg.action = .demote)
      (hminN : r.cfg.minN ≤ (st.push r.cfg.window r.wasCorrect).outcomes.length) :
      Recorded st r (⟨[], some (addSecs r.nowSecs r.cooldownSecs)⟩,
        .demoted (r.cfg.evaluate (st.push r.cfg.window r.wasCorrect).outcomes))
  | alarmed (h : st.isDemoted r.nowSecs = false) (haction : r.cfg.action = .alarm) :
      Recorded st r (st.push r.cfg.window r.wasCorrect,
        .alarmed (r.cfg.evaluate (st.push r.cfg.window r.wasCorrect).outcomes))

theorem record_cases (st : RouteState) (r : Resolved F) : Recorded st r (st.record r) := by
  have hpush : (st.push r.cfg.window r.wasCorrect).isDemoted r.nowSecs = st.isDemoted r.nowSecs :=
    rfl
  unfold RouteState.record
  simp only [hpush]
  by_cases hheld : st.isDemoted r.nowSecs
  · rw [if_pos hheld]
    exact .held hheld
  · have hfree : st.isDemoted r.nowSecs = false := Bool.eq_false_iff.mpr hheld
    rw [if_neg hheld]
    split_ifs with hbreach
    · exact .quiet hfree
    · have hminN := Guardrail.breached_minN (by simpa using hbreach)
      cases haction : r.cfg.action with
      | demote => exact .demoted hfree haction hminN
      | alarm => exact .alarmed hfree haction

theorem length_push (st : RouteState) (window : Nat) (ok : Bool) :
    (st.push window ok).outcomes.length ≤ window ∧
      (st.push window ok).outcomes.length ≤ st.outcomes.length + 1 := by
  simp only [RouteState.push, List.length_drop, List.length_append, List.length_singleton]
  omega

theorem Recorded.push {st : RouteState} {r : Resolved F} {out : RouteState × Reaction F}
    (h : Recorded st r out) : out.1 = st.push r.cfg.window r.wasCorrect ∨ out.1.outcomes = [] := by
  cases h with
  | held => exact .inl rfl
  | quiet => exact .inl rfl
  | demoted => exact .inr rfl
  | alarmed => exact .inl rfl

theorem record_length (st : RouteState) (r : Resolved F) :
    (st.record r).1.outcomes.length ≤ r.cfg.window ∧
      (st.record r).1.outcomes.length ≤ st.outcomes.length + 1 := by
  rcases (record_cases st r).push with h | h
  · rw [h]
    exact length_push st r.cfg.window r.wasCorrect
  · rw [h]
    exact ⟨Nat.zero_le _, Nat.zero_le _⟩

theorem record_demoted {st : RouteState} {r : Resolved F} (h : (st.record r).2 = .demoted v) :
    st.isDemoted r.nowSecs = false ∧ r.cfg.action = .demote ∧
      r.cfg.minN ≤ st.outcomes.length + 1 ∧
      (st.record r).1 = ⟨[], some (addSecs r.nowSecs r.cooldownSecs)⟩ := by
  have hcases := record_cases st r
  generalize st.record r = out at h hcases
  cases hcases with
  | held => cases h
  | quiet => cases h
  | demoted hfree haction hminN =>
    exact ⟨hfree, haction, hminN.trans (length_push st _ _).2, rfl⟩
  | alarmed => cases h

theorem record_held {st : RouteState} {r : Resolved F} (h : st.isDemoted r.nowSecs) :
    (st.record r).2 = .none ∧ (st.record r).1.demotedUntil = st.demotedUntil := by
  have hcases := record_cases st r
  generalize st.record r = out at hcases
  cases hcases with
  | held => exact ⟨rfl, rfl⟩
  | quiet hfree => exact ⟨rfl, rfl⟩
  | demoted hfree => rw [h] at hfree; cases hfree
  | alarmed hfree => rw [h] at hfree; cases hfree

theorem record_alarm {st : RouteState} {r : Resolved F} (h : r.cfg.action = .alarm) :
    (∀ v, (st.record r).2 ≠ .demoted v) ∧
      (st.record r).1.demotedUntil = st.demotedUntil := by
  have hcases := record_cases st r
  generalize st.record r = out at hcases
  cases hcases with
  | held => exact ⟨nofun, rfl⟩
  | quiet => exact ⟨nofun, rfl⟩
  | demoted hfree haction => rw [h] at haction; cases haction
  | alarmed => exact ⟨nofun, rfl⟩

-- ---------------------------------------------------------------------------
-- Whole runs
-- ---------------------------------------------------------------------------

theorem state_after (calls : List (Call F)) (c : Call F) (key : Key) :
    (after (calls ++ [c])).state key = match c with
      | .record key' r =>
        if key' = key then (((after calls).state key).record r).1 else (after calls).state key
      | .reset key' => if key' = key then .default else (after calls).state key := by
  rw [after_append]
  cases c with
  | record key' r => exact state_record _ key key' r
  | reset key' => exact state_reset _ key key'

/-- The calls of one key. -/
def callsOf (key : Key) (calls : List (Call F)) : List (Call F) :=
  calls.filter (·.key = key)

/-- The calls of the other keys leave the state of a key as it is. -/
theorem state_callsOf (calls : List (Call F)) (key : Key) :
    (after calls).state key = (after (callsOf key calls)).state key := by
  induction calls using List.reverseRec with
  | nil => rfl
  | append_singleton calls c ih =>
    rw [callsOf, List.filter_append, state_after]
    by_cases hkey : c.key = key
    · rw [List.filter_singleton, decide_eq_true hkey, cond_true, state_after, ← callsOf, ← ih]
    · rw [List.filter_singleton, decide_eq_false hkey, cond_false, List.append_nil, ← callsOf, ← ih]
      cases c with
      | record key' r => exact if_neg hkey
      | reset key' => exact if_neg hkey

theorem length_window (calls : List (Call F)) (key : Key) (r : Resolved F) {post : List (Call F)}
    (hpost : ∀ r', .record key r' ∉ post) :
    ((after (calls ++ [.record key r] ++ post)).state key).outcomes.length ≤ r.cfg.window := by
  induction post using List.reverseRec with
  | nil =>
    rw [List.append_nil, state_after]
    simp only [if_true]
    exact (record_length _ r).1
  | append_singleton post c ih =>
    have hbefore := ih fun r' hr => hpost r' (List.mem_append_left _ hr)
    rw [← List.append_assoc, state_after]
    cases c with
    | record key' r' =>
      have hkey : key' ≠ key := by
        rintro rfl
        exact hpost r' (by simp)
      simp only [hkey, if_false]
      exact hbefore
    | reset key' =>
      simp only
      split_ifs with hkey
      · exact Nat.zero_le _
      · exact hbefore

section Demoted

variable {pre mid : List (Call F)} {key : Key} {r : Resolved F} {v : GuardrailVerdict F}

/-- A demotion empties the window, so what fills it was recorded since. -/
theorem length_since (hfirst : reaction pre (.record key r) = .demoted v) :
    ((after (pre ++ [.record key r] ++ mid)).state key).outcomes.length ≤ records key mid := by
  induction mid using List.reverseRec with
  | nil =>
    obtain ⟨-, -, -, hst⟩ := record_demoted (reaction_record pre key r ▸ hfirst)
    rw [List.append_nil, state_after]
    simp [hst]
  | append_singleton mid c ih =>
    rw [← List.append_assoc, state_after, records_append]
    cases c with
    | record key' r' =>
      rw [records_record]
      by_cases hkey : key' = key
      · have hgrow := (record_length ((after (pre ++ [.record key r] ++ mid)).state key) r').2
        simp only [hkey, if_true]
        exact hgrow.trans (Nat.add_le_add_right ih 1)
      · simp only [hkey, if_false]
        exact ih
    | reset key' =>
      by_cases hkey : key' = key
      · simp only [hkey, if_true]
        exact Nat.zero_le _
      · simp only [hkey, if_false]
        exact ih

/-- The deadline of a demotion stands until the clock has passed it. -/
theorem deadline_stands (hfirst : reaction pre (.record key r) = .demoted v)
    (hreset : .reset key ∉ mid) :
    ((after (pre ++ [.record key r] ++ mid)).state key).demotedUntil =
        some (addSecs r.nowSecs r.cooldownSecs) ∨
      ∃ t ∈ times mid, addSecs r.nowSecs r.cooldownSecs ≤ t := by
  induction mid using List.reverseRec with
  | nil =>
    obtain ⟨-, -, -, hst⟩ := record_demoted (reaction_record pre key r ▸ hfirst)
    rw [List.append_nil, state_after]
    simp [hst]
  | append_singleton mid c ih =>
    rcases ih fun h => hreset (List.mem_append_left _ h) with hstands | ⟨t, ht, hpast⟩
    · rw [← List.append_assoc, state_after]
      cases c with
      | record key' r' =>
        by_cases hkey : key' = key
        · simp only [hkey, if_true]
          rcases lt_or_ge r'.nowSecs (addSecs r.nowSecs r.cooldownSecs) with hlt | hge
          · refine .inl ((record_held ?_).2.trans hstands)
            rw [RouteState.isDemoted, hstands]
            exact decide_eq_true hlt
          · exact .inr ⟨r'.nowSecs, by simp [times], hge⟩
        · simp only [hkey, if_false]
          exact .inl hstands
      | reset key' =>
        have hkey : key' ≠ key := by
          rintro rfl
          exact hreset (by simp)
        simp only [hkey, if_false]
        exact .inl hstands
    · refine .inr ⟨t, ?_, hpast⟩
      rw [times, List.filterMap_append]
      exact List.mem_append_left _ ht

end Demoted

theorem addSecs_eq (hlow : -2 ^ 63 ≤ nowSecs + cooldownSecs)
    (hhigh : nowSecs + cooldownSecs < 2 ^ 63) :
    addSecs nowSecs cooldownSecs = nowSecs + cooldownSecs := by
  rw [addSecs, Int.bmod_eq_of_le] <;> omega

/-- The guardrail does not flap: at every point of a run, whatever the settings each
record comes with. -/
theorem guardrail_never_flaps (key : Key) (pre mid : List (Call F)) (r r' : Resolved F) :
    -- two demotions are the cooldown apart, unless the key was reset in between
    (∀ v v', Clock (mid ++ [.record key r']) → .reset key ∉ mid →
      -2 ^ 63 ≤ r.nowSecs + r.cooldownSecs → r.nowSecs + r.cooldownSecs < 2 ^ 63 →
      reaction pre (.record key r) = .demoted v →
      reaction (pre ++ [.record key r] ++ mid) (.record key r') = .demoted v' →
      r.nowSecs + r.cooldownSecs ≤ r'.nowSecs) ∧
    -- and at least `minN` records apart
    (∀ v v', reaction pre (.record key r) = .demoted v →
      reaction (pre ++ [.record key r] ++ mid) (.record key r') = .demoted v' →
      r'.cfg.minN ≤ records key (mid ++ [.record key r'])) ∧
    ((after pre).isDemoted key r.nowSecs → reaction pre (.record key r) = .none) ∧
    (r.cfg.action = .alarm → (∀ v, reaction pre (.record key r) ≠ .demoted v) ∧
      ∀ now, (after (pre ++ [.record key r])).isDemoted key now = (after pre).isDemoted key now) ∧
    ((∀ r'', .record key r'' ∉ mid) →
      ((after (pre ++ [.record key r] ++ mid)).state key).outcomes.length ≤ r.cfg.window) ∧
    -- the calls of other keys change neither the state nor the reactions
    (after pre).state key = (after (callsOf key pre)).state key ∧
    reaction pre (.record key r) = reaction (callsOf key pre) (.record key r) := by
  refine ⟨fun v v' hclock hreset hlow hhigh hfirst hsecond => ?_, fun v v' hfirst hsecond => ?_,
    fun hheld => ?_, fun haction => ⟨fun v => ?_, fun now => ?_⟩, fun hmid => ?_, ?_, ?_⟩
  · rw [reaction_record] at hsecond
    obtain ⟨hfree, -⟩ := record_demoted hsecond
    rw [← addSecs_eq hlow hhigh]
    rcases deadline_stands hfirst hreset with hstands | ⟨t, ht, hpast⟩
    · rw [RouteState.isDemoted, hstands] at hfree
      exact not_lt.mp (of_decide_eq_false hfree)
    · rw [Clock, times, List.filterMap_append] at hclock
      exact hpast.trans ((List.pairwise_append.mp hclock).2.2 t ht r'.nowSecs (by simp))
  · rw [reaction_record] at hsecond
    obtain ⟨-, -, hminN, -⟩ := record_demoted hsecond
    rw [records_append, records_record, if_pos rfl]
    exact hminN.trans (Nat.add_le_add_right (length_since hfirst) 1)
  · rw [isDemoted_state] at hheld
    exact (record_held hheld).1
  · exact (record_alarm haction).1 v
  · rw [isDemoted_state, isDemoted_state, state_after]
    simp only [if_true, RouteState.isDemoted, (record_alarm haction).2]
  · exact length_window pre key r hmid
  · exact state_callsOf pre key
  · rw [reaction_record, reaction_record, state_callsOf]

-- ---------------------------------------------------------------------------
-- A key that fails on every outcome
-- ---------------------------------------------------------------------------

def sampleKey : Key := ("t", 0)

noncomputable def sampleCfg : Guardrail ℝ :=
  { alpha := 0.9, delta := 0.5, window := 1, minN := 1, action := .demote }

noncomputable def sampleFailure (nowSecs : Int) : Resolved ℝ :=
  { cfg := sampleCfg, wasCorrect := false, nowSecs, cooldownSecs := 3600 }

theorem sampleFailure_demotes (st : RouteState) (now : Int) (h : st.isDemoted now = false) :
    st.record (sampleFailure now) =
      (⟨[], some (addSecs now 3600)⟩, .demoted (sampleCfg.evaluate [false])) := by
  have hpush : st.push 1 false = { st with outcomes := [false] } := by
    simp [RouteState.push]
  have hbreach : (sampleCfg.evaluate [false]).breached = true := by
    have hslack := Real.sqrt_nonneg (max (Real.log (1.0 / 0.5)) 0 / (2.0 * ((1 : ℕ) : ℝ)))
    simp only [Guardrail.evaluate, sampleCfg, Analytic.sqrt, Analytic.ln]
    norm_num at hslack ⊢
    linarith
  have hfree : RouteState.isDemoted { st with outcomes := [false] } now = false := h
  rw [RouteState.record, show (sampleFailure now).cfg = sampleCfg from rfl,
    show st.push sampleCfg.window (sampleFailure now).wasCorrect = _ from hpush]
  simp only [sampleFailure, hfree, hbreach, Bool.not_true, Bool.false_eq_true, if_false]
  rfl

/-- A reset lets a key be demoted again before the cooldown has elapsed. -/
theorem reset_shortens_cooldown : ∃ v v' : GuardrailVerdict ℝ,
    Clock [.record sampleKey (sampleFailure 0), .reset sampleKey,
      .record sampleKey (sampleFailure 1)] ∧
    reaction [] (.record sampleKey (sampleFailure 0)) = .demoted v ∧
    reaction [.record sampleKey (sampleFailure 0), .reset sampleKey]
      (.record sampleKey (sampleFailure 1)) = .demoted v' ∧
    ¬(sampleFailure 0).nowSecs + (sampleFailure 0).cooldownSecs ≤ (sampleFailure 1).nowSecs := by
  refine ⟨sampleCfg.evaluate [false], sampleCfg.evaluate [false], ?_, ?_, ?_, ?_⟩
  · simp [Clock, times, sampleFailure]
  · rw [reaction_record, sampleFailure_demotes _ _ rfl]
  · rw [reaction_record, sampleFailure_demotes]
    rw [show [Call.record sampleKey (sampleFailure 0), .reset sampleKey] =
      [.record sampleKey (sampleFailure 0)] ++ [.reset sampleKey] from rfl, state_after]
    rfl
  · simp [sampleFailure]

theorem guardrail_never_flaps_hour :
    (sampleFailure 0).nowSecs + (sampleFailure 0).cooldownSecs ≤ (sampleFailure 3600).nowSecs := by
  refine (guardrail_never_flaps sampleKey [] [] (sampleFailure 0) (sampleFailure 3600)).1
    (sampleCfg.evaluate [false]) (sampleCfg.evaluate [false]) ?_ List.not_mem_nil ?_ ?_ ?_ ?_
  · simp [Clock, times]
  · simp [sampleFailure]
  · simp [sampleFailure]
  · rw [reaction_record, sampleFailure_demotes _ _ rfl]
  · rw [reaction_record, sampleFailure_demotes]
    rw [List.append_nil, state_after]
    simp only [if_true]
    rw [sampleFailure_demotes _ _ rfl]
    decide

end Firstpass.Guard
