import Firstpass.Core.Ltt

/-!
# The fixed-sequence walk

The walk certifies the longest initial run of qualified candidates that pass
their test, and its rows say what each threshold serves.
-/

namespace Firstpass.Ltt

open Descending

-- ---------------------------------------------------------------------------
-- Pushed rows
-- ---------------------------------------------------------------------------

section
variable {F : Type}

/-- The rows of the test sequence. -/
def qualified (minN : Nat) (rows : List (LttDiagnostic F)) : List (LttDiagnostic F) :=
  rows.filter (minN ≤ ·.nServed)

def certified (rows : List (LttDiagnostic F)) : List (LttDiagnostic F) :=
  rows.filter (·.certified)

@[simp] theorem Walk.push_diagnostics (w : Walk F) (active : Bool) (row : LttDiagnostic F) :
    (w.push active row).diagnostics = w.diagnostics ++ [row] := rfl

@[simp] theorem Walk.push_walkActive (w : Walk F) (active : Bool) (row : LttDiagnostic F) :
    (w.push active row).walkActive = active := rfl

theorem best_push {w : Walk F} (active : Bool) (row : LttDiagnostic F)
    (h : w.best.bind (w.diagnostics[·]?) = (certified w.diagnostics).getLast?) :
    (w.push active row).best.bind ((w.push active row).diagnostics[·]?) =
      (certified (w.push active row).diagnostics).getLast? := by
  rw [Walk.push_diagnostics]
  cases hrow : row.certified with
  | true => simp [Walk.push, certified, hrow]
  | false =>
    have hkeep : certified (w.diagnostics ++ [row]) = certified w.diagnostics := by
      simp [certified, hrow]
    have hbest : (w.push active row).best = w.best := by simp [Walk.push, hrow]
    rw [hkeep, hbest, ← h]
    cases hi : w.best with
    | none => rfl
    | some i => exact List.getElem?_append_left (w.best_lt i hi)

theorem takeWhile_concat (p : α → Bool) (xs : List α) (x : α) :
    (xs ++ [x]).takeWhile p = xs.takeWhile p ++ if xs.all p && p x then [x] else [] := by
  induction xs with
  | nil => cases h : p x <;> simp [h]
  | cons y ys ih => cases h : p y <;> simp [h, ih]

end

variable {F : Type} [LinearOrder F] {s pairs : List (F × Bool)}

-- ---------------------------------------------------------------------------
-- The candidates
-- ---------------------------------------------------------------------------

theorem candidates_eq_dedup (hs : Desc Prod.fst s) : candidates s = (s.map Prod.fst).dedup :=
  List.Pairwise.destutter_eq_dedup (r := fun a b : F => b ≤ a) (List.pairwise_map.mpr hs)

theorem mem_candidates (hs : Desc Prod.fst s) : t ∈ candidates s ↔ ∃ p ∈ s, p.1 = t := by
  rw [candidates_eq_dedup hs, List.mem_dedup, List.mem_map]

theorem candidates_descending (hs : Desc Prod.fst s) : (candidates s).Pairwise (· > ·) := by
  have hmap : (s.map Prod.fst).Pairwise fun a b => b ≤ a := List.pairwise_map.mpr hs
  have hle := hmap.sublist (List.destutter_sublist (· ≠ ·) (s.map Prod.fst))
  have hne : (candidates s).Pairwise (· ≠ ·) := by
    rw [candidates_eq_dedup hs]
    exact List.nodup_dedup _
  exact hle.imp₂ (fun _ _ hab hneq => lt_of_le_of_ne hab hneq.symm) hne

theorem sorted_perm {pairs' : List (F × Bool)} (h : pairs.Perm pairs') :
    (sortDesc Prod.fst pairs).Perm (sortDesc Prod.fst pairs') :=
  (sortDesc_perm _ _).trans (h.trans (sortDesc_perm _ _).symm)

theorem candidates_perm {pairs' : List (F × Bool)} (h : pairs.Perm pairs') :
    candidates (sortDesc Prod.fst pairs) = candidates (sortDesc Prod.fst pairs') := by
  have hkeys := map_key_eq (desc_sortDesc _ _) (desc_sortDesc _ _) (sorted_perm h)
  rw [candidates, candidates, hkeys]

-- ---------------------------------------------------------------------------
-- The cursor
-- ---------------------------------------------------------------------------

/-- The cursor has taken these pairs off the front of the sorted ones. -/
structure Cursor.Taken (s taken : List (F × Bool)) (cursor : Cursor F) : Prop where
  split : taken ++ cursor.rest = s
  ptr : cursor.ptr = taken.length
  failures : cursor.failures = Firstpass.failures taken

theorem advance_desc {rest : List (F × Bool)} (hs : Desc Prod.fst rest) (lambda : F)
    (ptr fails : Nat) :
    advance lambda rest ptr fails = ⟨below Prod.fst lambda rest,
      ptr + (servedAt lambda rest).length, fails + failures (servedAt lambda rest)⟩ := by
  induction rest generalizing ptr fails with
  | nil => rfl
  | cons p rest ih =>
    obtain ⟨score, correct⟩ := p
    obtain ⟨hhead, hrest⟩ := List.pairwise_cons.mp hs
    rw [advance]
    by_cases htake : lambda ≤ score
    · rw [if_pos htake, ih hrest]
      cases correct <;>
        simp [servedAt, atLeast, below, failures, htake, htake.not_gt, Nat.add_assoc, Nat.add_comm]
    · have hbelow : ∀ q ∈ (score, correct) :: rest, q.1 < lambda := by
        intro q hq
        rcases List.mem_cons.mp hq with rfl | hq
        · exact not_le.mp htake
        · exact (hhead q hq).trans_lt (not_le.mp htake)
      have hnone : servedAt lambda ((score, correct) :: rest) = [] :=
        List.filter_eq_nil_iff.mpr fun q hq => by simpa using hbelow q hq
      have hall : below Prod.fst lambda ((score, correct) :: rest) = (score, correct) :: rest :=
        List.filter_eq_self.mpr fun q hq => decide_eq_true (hbelow q hq)
      rw [if_neg htake, hnone, hall]
      rfl

theorem Cursor.Taken.advance {taken : List (F × Bool)} {cursor : Cursor F} {lambda : F}
    (h : cursor.Taken s taken) (hs : Desc Prod.fst s) (hge : ∀ p ∈ taken, lambda ≤ p.1) :
    (Ltt.advance lambda cursor.rest cursor.ptr cursor.failures).Taken s (servedAt lambda s) := by
  have hrest : Desc Prod.fst cursor.rest :=
    hs.sublist (h.split ▸ List.sublist_append_right taken cursor.rest)
  have hserved : servedAt lambda s = taken ++ servedAt lambda cursor.rest := by
    rw [← h.split, servedAt, atLeast, List.filter_append]
    exact congrArg (· ++ _) (List.filter_eq_self.mpr fun p hp => decide_eq_true (hge p hp))
  rw [advance_desc hrest, h.ptr, h.failures, hserved]
  refine ⟨?_, List.length_append.symm, (failures_append _ _).symm⟩
  rw [List.append_assoc, servedAt_append_below hrest, h.split]

-- ---------------------------------------------------------------------------
-- The stop
-- ---------------------------------------------------------------------------

theorem stop_of_run {delta : F} {minN : Nat} {rows before after : List (LttDiagnostic F)}
    {row : LttDiagnostic F} (hdesc : (rows.map (·.lambda)).Pairwise (· > ·))
    (hrun : certified rows = (qualified minN rows).takeWhile (·.pValue ≤ delta))
    (hrows : rows = before ++ row :: after) (hsize : minN ≤ row.nServed)
    (hfail : delta < row.pValue) : ∀ later ∈ row :: after, later.certified = false := by
  intro later hlater
  by_contra hcertified
  have hmem : later ∈ certified rows := by
    rw [hrows]
    exact List.mem_filter.mpr ⟨List.mem_append_right _ hlater, by simpa using hcertified⟩
  have hsplit : qualified minN rows = qualified minN before ++ row :: qualified minN after := by
    simp [hrows, qualified, hsize]
  have hstop : (row :: qualified minN after).takeWhile (fun r => decide (r.pValue ≤ delta)) = [] :=
    List.takeWhile_cons_of_neg (by simpa using hfail)
  have hbefore : later ∈ before := by
    rw [hrun, hsplit, List.takeWhile_append, hstop, List.append_nil] at hmem
    split_ifs at hmem
    · exact (List.mem_filter.mp hmem).1
    · exact (List.mem_filter.mp ((List.takeWhile_sublist _).subset hmem)).1
  -- The scores of the rows are distinct, so no row stands before and after.
  rw [hrows, List.map_append, List.pairwise_append] at hdesc
  exact lt_irrefl _ (hdesc.2.2 _ (List.mem_map_of_mem hbefore) _ (List.mem_map_of_mem hlater))

section
variable [Field F] {alpha delta : F}

-- ---------------------------------------------------------------------------
-- The report
-- ---------------------------------------------------------------------------

/-- The result is about the last certified row, or serves nothing. -/
inductive Chooses (alpha delta : F) (pairs : List (F × Bool)) (result : LttResult F) : Prop
  | nothing : certified result.diagnostics = [] →
      result = mkInfeasible alpha delta result.diagnostics → Chooses alpha delta pairs result
  | last : (certified result.diagnostics).getLast? = some row →
      result =
        { alpha, delta
          threshold := row.lambda
          feasible := true
          empiricalRisk := row.empiricalRisk
          nServed := row.nServed
          falseAcceptRate :=
            if failures pairs = 0 then none
            else some (failures (servedAt row.lambda pairs) / failures pairs)
          diagnostics := result.diagnostics } → Chooses alpha delta pairs result

theorem report_perm {s' : List (F × Bool)} (h : s.Perm s') (w : Walk F) :
    report alpha delta s w = report alpha delta s' w := by
  unfold report
  split
  · rfl
  · simp only [(h.filter _).length_eq]

theorem report_diagnostics (s : List (F × Bool)) (w : Walk F) :
    (report alpha delta s w).diagnostics = w.diagnostics := by
  unfold report
  split <;> rfl

theorem report_chooses {w : Walk F} (hs : s.Perm pairs)
    (hbest : w.best.bind (w.diagnostics[·]?) = (certified w.diagnostics).getLast?) :
    Chooses alpha delta pairs (report alpha delta s w) := by
  have hincorrect : (s.filter (!·.2)).length = failures pairs :=
    List.countP_eq_length_filter.symm.trans (failures_perm hs)
  have haccepted : ∀ t : F,
      (s.filter fun p => !p.2 && decide (t ≤ p.1)).length = failures (servedAt t pairs) := by
    intro t
    rw [← failures_perm (servedAt_perm hs t), failures, servedAt, atLeast, List.countP_filter,
      List.countP_eq_length_filter]
  unfold report
  split
  · rename_i hnone
    rw [hnone] at hbest
    exact .nothing (List.getLast?_eq_none_iff.mp hbest.symm) rfl
  · rename_i bestIdx hsome
    rw [hsome] at hbest
    refine .last (hbest.symm.trans (List.getElem?_eq_getElem (w.best_lt bestIdx hsome))) ?_
    simp only [hincorrect, haccepted]
    rfl

-- ---------------------------------------------------------------------------
-- The walk without the cursor
-- ---------------------------------------------------------------------------

variable [Analytic F] {minN : Nat}

def judgeServed (alpha delta : F) (minN : Nat) (pairs : List (F × Bool)) (w : Walk F)
    (lambda : F) : Walk F :=
  w.judge alpha delta minN lambda (servedAt lambda pairs).length (failures (servedAt lambda pairs))

theorem visit_foldl (alpha delta : F) (minN : Nat) {taken : List (F × Bool)} {cursor : Cursor F}
    {lambdas : List F} (hs : Desc Prod.fst s) (hdesc : lambdas.Pairwise (· > ·))
    (h : cursor.Taken s taken) (hge : ∀ lambda ∈ lambdas, ∀ p ∈ taken, lambda ≤ p.1)
    (w : Walk F) :
    (lambdas.foldl (visit alpha delta minN) (cursor, w)).2 =
      lambdas.foldl (judgeServed alpha delta minN s) w := by
  induction lambdas generalizing cursor taken w with
  | nil => rfl
  | cons lambda lambdas ih =>
    obtain ⟨hlt, hdesc⟩ := List.pairwise_cons.mp hdesc
    have hnext := h.advance hs (hge lambda List.mem_cons_self)
    have hjudge : w.judge alpha delta minN lambda
        (Ltt.advance lambda cursor.rest cursor.ptr cursor.failures).ptr
        (Ltt.advance lambda cursor.rest cursor.ptr cursor.failures).failures =
          judgeServed alpha delta minN s w lambda := by
      rw [hnext.ptr, hnext.failures, judgeServed]
    rw [List.foldl_cons, List.foldl_cons, ← hjudge]
    refine ih hdesc hnext (fun mu hmu p hp => ?_) _
    exact (hlt mu hmu).le.trans (of_decide_eq_true (List.mem_filter.mp hp).2)

def walk (alpha delta : F) (minN : Nat) (pairs : List (F × Bool)) : Walk F :=
  (candidates (sortDesc Prod.fst pairs)).foldl (judgeServed alpha delta minN pairs) Walk.start

theorem judgeServed_perm {pairs' : List (F × Bool)} (h : pairs.Perm pairs') :
    judgeServed alpha delta minN pairs = judgeServed alpha delta minN pairs' := by
  funext w lambda
  rw [judgeServed, judgeServed, (servedAt_perm h lambda).length_eq,
    failures_perm (servedAt_perm h lambda)]

theorem walk_perm {pairs' : List (F × Bool)} (h : pairs.Perm pairs') :
    walk alpha delta minN pairs = walk alpha delta minN pairs' := by
  rw [walk, walk, candidates_perm h, judgeServed_perm h]

theorem calibrate_eq_report (alpha delta : F) (minN : Nat) (pairs : List (F × Bool)) :
    calibrate pairs alpha delta minN =
      report alpha delta (sortDesc Prod.fst pairs) (walk alpha delta minN pairs) := by
  unfold calibrate
  split_ifs with hnil
  · rw [hnil, walk, sortDesc_of_desc List.Pairwise.nil]
    rfl
  · have hdesc := desc_sortDesc Prod.fst pairs
    have hstart : (⟨sortDesc Prod.fst pairs, 0, 0⟩ : Cursor F).Taken (sortDesc Prod.fst pairs) [] :=
      ⟨rfl, rfl, rfl⟩
    have hwalk := visit_foldl alpha delta minN hdesc
      (candidates_descending hdesc) hstart (fun _ _ _ hp => absurd hp List.not_mem_nil) Walk.start
    rw [judgeServed_perm (sortDesc_perm Prod.fst pairs)] at hwalk
    exact congrArg (report alpha delta _) hwalk

theorem calibrate_perm {pairs' : List (F × Bool)} (h : pairs.Perm pairs') :
    calibrate pairs' alpha delta minN = calibrate pairs alpha delta minN := by
  rw [calibrate_eq_report, calibrate_eq_report, walk_perm h, report_perm (sorted_perm h)]

-- ---------------------------------------------------------------------------
-- The rows
-- ---------------------------------------------------------------------------

/-- The row says what its threshold serves, and how likely so few failures are. -/
structure Exact (alpha : F) (minN : Nat) (pairs : List (F × Bool)) (row : LttDiagnostic F) :
    Prop where
  nServed : row.nServed = (servedAt row.lambda pairs).length
  empiricalRisk : row.empiricalRisk =
    if row.nServed = 0 then 0 else (failures (servedAt row.lambda pairs) : F) / row.nServed
  pValue : row.pValue =
    if row.nServed < minN then 1
    else binomialCdf row.nServed (failures (servedAt row.lambda pairs)) alpha

structure Sound (alpha delta : F) (minN : Nat) (pairs : List (F × Bool)) (grid : List F)
    (w : Walk F) : Prop where
  grid : w.diagnostics.map (·.lambda) = grid
  rows : ∀ row ∈ w.diagnostics, Exact alpha minN pairs row
  active : w.walkActive = (qualified minN w.diagnostics).all (·.pValue ≤ delta)
  run : certified w.diagnostics = (qualified minN w.diagnostics).takeWhile (·.pValue ≤ delta)
  best : w.best.bind (w.diagnostics[·]?) = (certified w.diagnostics).getLast?

theorem sound_start : Sound alpha delta minN pairs [] (Walk.start : Walk F) :=
  ⟨rfl, fun _ h => absurd h List.not_mem_nil, rfl, rfl, rfl⟩

theorem Sound.push {grid : List F} {w : Walk F} {active : Bool} {row : LttDiagnostic F}
    {lambda : F} (h : Sound alpha delta minN pairs grid w) (hlambda : row.lambda = lambda)
    (hexact : Exact alpha minN pairs row)
    (hactive : active =
      (w.walkActive && (decide (row.nServed < minN) || decide (row.pValue ≤ delta))))
    (hcertified : row.certified =
      (w.walkActive && decide (minN ≤ row.nServed) && decide (row.pValue ≤ delta))) :
    Sound alpha delta minN pairs (grid ++ [lambda]) (w.push active row) := by
  refine ⟨?_, ?_, ?_, ?_, best_push active row h.best⟩
  · rw [← h.grid, ← hlambda, Walk.push_diagnostics, List.map_append, List.map_singleton]
  · intro other hmem
    cases List.mem_append.mp hmem with
    | inl hmem =>
      exact h.rows other hmem
    | inr hmem =>
      rwa [List.mem_singleton.mp hmem]
  · have hact := h.active
    by_cases hsize : minN ≤ row.nServed <;>
      simp [qualified, hactive, hact, hsize, not_lt.mpr, not_le.mp]
  · have hgrow : certified (w.diagnostics ++ [row]) =
        certified w.diagnostics ++ if row.certified then [row] else [] := by
      cases hrow : row.certified <;> simp [certified, hrow]
    rw [Walk.push_diagnostics, hgrow, h.run, hcertified, h.active]
    by_cases hsize : minN ≤ row.nServed
    · have hqualified : qualified minN (w.diagnostics ++ [row]) =
          qualified minN w.diagnostics ++ [row] := by simp [qualified, hsize]
      rw [hqualified, takeWhile_concat, decide_eq_true hsize, Bool.and_true]
    · have hqualified : qualified minN (w.diagnostics ++ [row]) = qualified minN w.diagnostics := by
        simp [qualified, not_le.mp hsize]
      rw [hqualified, decide_eq_false hsize, Bool.and_false, Bool.false_and]
      exact List.append_nil _

theorem stays_active : ∀ active passes : Bool,
    (if active && !(active && passes) then false else active) = (active && passes) := by decide

theorem Sound.judge {grid : List F} {w : Walk F} (h : Sound alpha delta minN pairs grid w)
    (lambda : F) :
    Sound alpha delta minN pairs (grid ++ [lambda])
      (judgeServed alpha delta minN pairs w lambda) := by
  rw [judgeServed, Walk.judge]
  by_cases hsize : (servedAt lambda pairs).length < minN
  · rw [if_pos hsize]
    refine h.push rfl ?_ ?_ ?_
    · exact ⟨rfl, rfl, (if_pos hsize).symm⟩
    · simp [hsize]
    · simp [hsize]
  · rw [if_neg hsize]
    refine h.push rfl ?_ ?_ ?_
    · exact ⟨rfl, rfl, (if_neg hsize).symm⟩
    · rw [decide_eq_false hsize, Bool.false_or]
      exact stays_active _ _
    · simp [not_lt.mp hsize]

theorem Sound.foldl {grid : List F} {w : Walk F} (h : Sound alpha delta minN pairs grid w)
    (lambdas : List F) :
    Sound alpha delta minN pairs (grid ++ lambdas)
      (lambdas.foldl (judgeServed alpha delta minN pairs) w) := by
  induction lambdas generalizing grid w with
  | nil => rwa [List.append_nil]
  | cons lambda lambdas ih =>
    rw [List.append_cons]
    exact ih (h.judge lambda)

theorem sound_walk (alpha delta : F) (minN : Nat) (pairs : List (F × Bool)) :
    Sound alpha delta minN pairs (candidates (sortDesc Prod.fst pairs))
      (walk alpha delta minN pairs) := sound_start.foldl _

-- ---------------------------------------------------------------------------
-- The result
-- ---------------------------------------------------------------------------

/-- A fixed-sequence walk over the scores of the pairs. -/
structure FixedSequence (alpha delta : F) (minN : Nat) (pairs : List (F × Bool))
    (result : LttResult F) : Prop where
  descending : (result.diagnostics.map (·.lambda)).Pairwise (· > ·)
  grid : ∀ t, t ∈ result.diagnostics.map (·.lambda) ↔ ∃ p ∈ pairs, p.1 = t
  rows : ∀ row ∈ result.diagnostics, Exact alpha minN pairs row
  run : certified result.diagnostics =
    (qualified minN result.diagnostics).takeWhile (·.pValue ≤ delta)
  stop : ∀ before row after, result.diagnostics = before ++ row :: after →
    minN ≤ row.nServed → delta < row.pValue → ∀ later ∈ row :: after, later.certified = false
  chooses : Chooses alpha delta pairs result

/-- Calibration is a fixed-sequence walk, whatever the order of the pairs. -/
theorem calibrate_fixedSequence (pairs : List (F × Bool)) (alpha delta : F) (minN : Nat) :
    FixedSequence alpha delta minN pairs (calibrate pairs alpha delta minN) ∧
      ∀ pairs', pairs.Perm pairs' →
        calibrate pairs' alpha delta minN = calibrate pairs alpha delta minN := by
  refine ⟨?_, fun _ h => calibrate_perm h⟩
  have hsorted := sortDesc_perm Prod.fst pairs
  have hdesc := desc_sortDesc Prod.fst pairs
  have hsound := sound_walk alpha delta minN pairs
  rw [calibrate_eq_report]
  refine ⟨?_, ?_, ?_, ?_, ?_, report_chooses hsorted hsound.best⟩ <;> rw [report_diagnostics]
  · rw [hsound.grid]
    exact candidates_descending hdesc
  · intro t
    simp only [hsound.grid, mem_candidates hdesc, hsorted.mem_iff]
  · exact hsound.rows
  · exact hsound.run
  · intro before row after
    exact stop_of_run (hsound.grid ▸ candidates_descending hdesc) hsound.run

end

end Firstpass.Ltt
