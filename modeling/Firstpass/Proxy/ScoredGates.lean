import Firstpass.Core.JsonSpan
import Firstpass.Proxy.ModelGates

/-!
# What a scored gate's verdict rests on

A gate that passes or fails a candidate records the score it did so by. The judge alone may not:
it takes a score out of range for a verdict, and loses an object among other braces.
-/

namespace Firstpass.ModelGates

open Inbound (trim isWhitespace head_trim last_trim trim_spec)
open Json (Value readText)
open Separator (stretch stretch_eq stretch_spec)

variable {F : Type} [F64 F] {tx : Texts F}

-- ---------------------------------------------------------------------------
-- The only object of a text
-- ---------------------------------------------------------------------------

/-- A text from brace to brace that is read as an object. -/
def IsObject (tx : Texts F) (o : List Char) : Prop :=
  (∃ body, o = '\x7b' :: (body ++ ['\x7d'])) ∧
    ∃ fields, readText tx.floatText (String.ofList o) = some (.object fields)

/-- One object, with other text around it, and every object of the text is inside of it. -/
structure OnlyObject (tx : Texts F) (text before obj after : List Char) : Prop where
  split : text = before ++ (obj ++ after)
  object : IsObject tx obj
  only : ∀ b o a, text = b ++ (o ++ a) → IsObject tx o →
    before.length ≤ b.length ∧ after.length ≤ a.length

theorem isWhitespace_of_isSpace {c : Char} (h : Json.isSpace c = true) : isWhitespace c = true := by
  simp only [Json.isSpace, Bool.or_eq_true, beq_iff_eq] at h
  rcases h with ((rfl | rfl) | rfl) | rfl <;> decide

/-- A trimmed text that is read as an object goes from brace to brace. -/
theorem isObject_trim {text : String} {fields : List (String × Value)}
    (h : readText tx.floatText (trim text) = some (.object fields)) :
    IsObject tx (trim text).toList := by
  have hspace : ∀ {c : Char}, isWhitespace c = false → Json.isSpace c = false := by
    intro c hc
    cases hs : Json.isSpace c with
    | false => rfl
    | true => rw [isWhitespace_of_isSpace hs] at hc; cases hc
  have hbraces := Json.readText_object_braces h (fun c hc => hspace (head_trim text c hc))
    (fun c hc => hspace (last_trim text c hc))
  exact ⟨hbraces, fields, by rwa [String.ofList_toList]⟩

/-- Blank ends of a text are no part of an object in it. -/
theorem split_of_blank {front text back before obj after : List Char}
    (h : front ++ (text ++ back) = before ++ (obj ++ after))
    (hfront : ∀ c ∈ front, isWhitespace c = true) (hback : ∀ c ∈ back, isWhitespace c = true)
    (hobj : ∃ body, obj = '\x7b' :: (body ++ ['\x7d'])) :
    ∃ before' after', before = front ++ before' ∧ after = after' ++ back ∧
      text = before' ++ (obj ++ after') := by
  obtain ⟨body, rfl⟩ := hobj
  have hopen : isWhitespace '\x7b' = false := by decide
  have hclose : isWhitespace '\x7d' = false := by decide
  obtain ⟨before', hbefore, hrest⟩ : ∃ before', before = front ++ before' ∧
      text ++ back = before' ++ ('\x7b' :: (body ++ ['\x7d']) ++ after) := by
    rcases List.append_eq_append_iff.mp h with ⟨mid, hmid, hrest⟩ | ⟨mid, hmid, hrest⟩
    · exact ⟨mid, hmid, hrest⟩
    · cases mid with
      | nil => exact ⟨[], by simpa using hmid.symm, by simpa using hrest.symm⟩
      | cons c mid =>
        obtain ⟨rfl, -⟩ := List.cons.inj hrest
        simp [hfront '\x7b' (by simp [hmid])] at hopen
  refine ⟨before', ?_⟩
  rw [← List.append_assoc] at hrest
  rcases List.append_eq_append_iff.mp hrest with ⟨mid, hmid, hafter⟩ | ⟨mid, hmid, hafter⟩
  · cases List.eq_nil_or_concat mid with
    | inl hnil =>
      subst hnil
      exact ⟨[], hbefore, by simpa using hafter.symm, by simpa using hmid.symm⟩
    | inr hlast =>
      obtain ⟨init, c, rfl⟩ := hlast
      have hc : c = '\x7d' := by
        have hends := congrArg List.getLast? hmid
        simpa [List.getLast?_append, List.getLast?_cons] using hends.symm
      simp [hback '\x7d' (by simp [hafter, hc])] at hclose
  · exact ⟨mid, hbefore, hafter, by simpa using hmid⟩

/-- Trimming takes neither the only object of a text nor a brace. -/
theorem OnlyObject.trimmed {text : String} {before obj after : List Char}
    (h : OnlyObject tx text.toList before obj after) :
    ∃ before' after', OnlyObject tx (trim text).toList before' obj after' ∧
      ('\x7b' ∈ before' ↔ '\x7b' ∈ before) ∧ ('\x7d' ∈ after' ↔ '\x7d' ∈ after) := by
  obtain ⟨front, back, htext, hfront, hback⟩ := trim_spec text
  obtain ⟨before', after', rfl, rfl, htrim⟩ :=
    split_of_blank (htext.symm.trans h.split) hfront hback h.object.1
  have hopen : '\x7b' ∉ front := fun hmem => absurd (hfront _ hmem) (by decide)
  have hclose : '\x7d' ∉ back := fun hmem => absurd (hback _ hmem) (by decide)
  refine ⟨before', after', ⟨htrim, h.object, ?_⟩, by simp [hopen], by simp [hclose]⟩
  intro b o a hsplit ho
  have hall : text.toList = (front ++ b) ++ (o ++ (a ++ back)) := by simp [htext, hsplit]
  have hlength := h.only _ o _ hall ho
  simp only [List.length_append] at hlength
  omega

/-- The only object is found where no brace opens before it and none closes after it. -/
theorem extract_only {text : String} {before obj after : List Char}
    (h : OnlyObject tx text.toList before obj after) (hbefore : '\x7b' ∉ before)
    (hafter : '\x7d' ∉ after) :
    extractJsonObject tx text = readText tx.floatText (String.ofList obj) := by
  obtain ⟨before', after', honly, hopen, hclose⟩ := h.trimmed
  obtain ⟨⟨body, hobj⟩, fields, hfields⟩ := h.object
  unfold extractJsonObject
  dsimp only
  split
  · next gs hread =>
    obtain ⟨hlow, hhigh⟩ := honly.only [] _ [] (by simp) (isObject_trim hread)
    obtain rfl := List.eq_nil_of_length_eq_zero (Nat.le_zero.mp hlow)
    obtain rfl := List.eq_nil_of_length_eq_zero (Nat.le_zero.mp hhigh)
    have htrim : (trim text).toList = obj := by simpa using honly.split
    rw [← htrim, String.ofList_toList, hread]
  · have hstretch : stretch '\x7b' '\x7d' (trim text).toList = obj := by
      rw [honly.split, ← List.append_assoc, hobj, List.append_assoc]
      exact stretch_eq (mt hopen.mp hbefore) (mt hclose.mp hafter)
    rw [hstretch, if_neg (by simp [hobj]), hfields]
    rfl

/-- It is not found where a brace opens before it or closes after it. -/
theorem extract_none {text : String} {before obj after : List Char}
    (h : OnlyObject tx text.toList before obj after)
    (hbrace : '\x7b' ∈ before ∨ '\x7d' ∈ after) : extractJsonObject tx text = none := by
  obtain ⟨before', after', honly, hopen, hclose⟩ := h.trimmed
  have hinside : '\x7b' ∈ before' ∨ '\x7d' ∈ after' := hbrace.imp hopen.mpr hclose.mpr
  have htrim := honly.split
  unfold extractJsonObject
  dsimp only
  split
  · next gs hread =>
    obtain ⟨hlow, hhigh⟩ := honly.only [] _ [] (by simp) (isObject_trim hread)
    simp [List.eq_nil_of_length_eq_zero (Nat.le_zero.mp hlow),
      List.eq_nil_of_length_eq_zero (Nat.le_zero.mp hhigh)] at hinside
  · split
    · rfl
    next hsome =>
    obtain ⟨b, body, a, hsplit, hstretch, hb, ha⟩ := stretch_spec (by decide) hsome
    refine Option.filter_eq_none_iff.mpr fun v hv hobject => ?_
    obtain ⟨fields, rfl⟩ := Json.isSome_asObject.mp hobject
    rw [← hstretch] at hsplit
    -- The stretch is an object, so the braces outside the only one are outside of it too.
    obtain ⟨hlow, hhigh⟩ := honly.only b _ a hsplit ⟨⟨body, hstretch⟩, fields, hv⟩
    rcases hinside with hmem | hmem
    · have hstart : before' <+: b :=
        List.prefix_of_prefix_length_le ⟨_, htrim.symm⟩ ⟨_, hsplit.symm⟩ hlow
      exact hb (hstart.subset hmem)
    · rw [← List.append_assoc] at htrim hsplit
      have hsuffix : after' <:+ a :=
        List.suffix_of_suffix_length_le ⟨_, htrim.symm⟩ ⟨_, hsplit.symm⟩ hhigh
      exact ha (hsuffix.subset hmem)

theorem IsObject.alone {obj : List Char} (h : IsObject tx obj) :
    extractJsonObject tx (String.ofList obj) = readText tx.floatText (String.ofList obj) := by
  have honly : OnlyObject tx (String.ofList obj).toList [] obj [] :=
    ⟨by simp, h, fun _ _ _ _ _ => ⟨Nat.zero_le _, Nat.zero_le _⟩⟩
  exact extract_only honly List.not_mem_nil List.not_mem_nil

-- ---------------------------------------------------------------------------
-- The judge
-- ---------------------------------------------------------------------------

/-- A score was recorded, and the verdict says on which side of the threshold it is. -/
def Scored (threshold : F) (r : GateResult F) : Prop :=
  ∃ s, r.score = some s ∧ (r.verdict = .pass ↔ threshold ≤ s.value)

@[simp]
theorem passfail_eq_pass {p : Bool} : passfail p = .pass ↔ p = true := by
  cases p <;> simp [passfail]

theorem passfail_ne_abstain (p : Bool) : passfail p ≠ .abstain := by cases p <;> simp [passfail]

theorem score_new {v : F} {s : Score F} (h : Score.new v = some s) :
    s.value = v ∧ 0 ≤ v ∧ v ≤ 1 := by
  unfold Score.new at h
  split at h
  · next hnonneg =>
    split at h
    · next hle =>
      cases h
      exact ⟨rfl, hnonneg, hle⟩
    · cases h
  · cases h

theorem score_new_of {v : F} (h : 0 ≤ v ∧ v ≤ 1) : Score.new v = some ⟨v, h.1, h.2⟩ :=
  (dif_pos h.1).trans (dif_pos h.2)

section judge

variable (tx) (judge : JudgeGate F) (complete : ModelRequest → Except ProviderError ModelResponse)
  (ms : Nat) (resp : ModelResponse)

/-- The judge is asked, and replies with a text. -/
def JudgeGate.Replies (text : String) : Prop :=
  resp.model ≠ judge.judgeModel ∧
    ∃ judgment, complete (judge.request resp) = .ok judgment ∧ judgment.text = text

/-- A reply without a score decides by its explicit `pass`. -/
def JudgeGate.DecidesBare (r : GateResult F) : Prop :=
  ∃ text obj p, judge.Replies complete resp text ∧ extractJsonObject tx text = some obj ∧
    judgedScore tx obj = none ∧ judgedPass obj = some p ∧
    r.score = none ∧ r.verdict = passfail p

/-- A verdict comes with its score, and a reply with one object is graded by it. -/
structure JudgeGate.Sound : Prop where
  scored : (judge.evaluate tx complete ms resp).verdict ≠ .abstain →
    Scored judge.threshold (judge.evaluate tx complete ms resp) ∨
      judge.DecidesBare tx complete resp (judge.evaluate tx complete ms resp)
  single : ∀ text, judge.Replies complete resp text → ∀ before obj after,
    OnlyObject tx text.toList before obj after →
      judge.evaluate tx complete ms resp =
        { parseJudgment tx judge.id (String.ofList obj) judge.threshold ms with
          costUsd := (judge.evaluate tx complete ms resp).costUsd }

/-- A reply whose score, if it has one, is in range, and with no other braces around its only
object: none that opens before it or closes after it. -/
structure Plain (text : String) : Prop where
  inRange : ∀ obj s, extractJsonObject tx text = some obj → judgedScore tx obj = some s →
    0 ≤ s ∧ s ≤ 1
  unbraced : ∀ before obj after, OnlyObject tx text.toList before obj after →
    '\x7b' ∉ before ∧ '\x7d' ∉ after

variable {tx judge complete ms resp}

omit [F64 F] in
theorem JudgeGate.Replies.unique {text text' : String} (h : judge.Replies complete resp text)
    (h' : judge.Replies complete resp text') : text = text' := by
  obtain ⟨-, judgment, hok, rfl⟩ := h
  obtain ⟨-, judgment', hok', rfl⟩ := h'
  rw [hok] at hok'
  cases hok'
  rfl

variable (tx ms) in
theorem JudgeGate.Replies.evaluate {text : String} (h : judge.Replies complete resp text) :
    ∃ cost, judge.evaluate tx complete ms resp =
      { parseJudgment tx judge.id text judge.threshold ms with costUsd := cost } := by
  obtain ⟨hmodel, judgment, hok, rfl⟩ := h
  exact ⟨_, by rw [JudgeGate.evaluate, if_neg hmodel, hok]⟩

variable (tx ms) in
theorem JudgeGate.Replies.graded {text : String} (h : judge.Replies complete resp text) :
    let r := judge.evaluate tx complete ms resp
    let p := parseJudgment tx judge.id text judge.threshold ms
    r.verdict = p.verdict ∧ r.score = p.score ∧ r.reason = p.reason := by
  obtain ⟨cost, heval⟩ := h.evaluate tx ms
  dsimp only
  rw [heval]
  generalize parseJudgment tx judge.id text judge.threshold ms = p
  exact ⟨rfl, rfl, rfl⟩

/-- Without a reply the judge abstains. -/
theorem JudgeGate.replies_of_verdict (h : (judge.evaluate tx complete ms resp).verdict ≠ .abstain) :
    ∃ text, judge.Replies complete resp text := by
  unfold JudgeGate.evaluate at h
  split at h
  · exact absurd rfl h
  · next hmodel =>
    cases hcall : complete (judge.request resp) with
    | ok judgment => exact ⟨judgment.text, hmodel, judgment, hcall, rfl⟩
    | error e =>
      rw [hcall] at h
      exact absurd rfl h

variable (ms) in
theorem parseJudgment_scored (id : String) (threshold : F) {text : String} {v : F} {obj : Value}
    (hobj : extractJsonObject tx text = some obj) (hscore : judgedScore tx obj = some v) :
    (parseJudgment tx id text threshold ms).verdict = passfail (threshold ≤ v) ∧
      (parseJudgment tx id text threshold ms).score = Score.new v := by
  simp [parseJudgment, hobj, hscore, GateResult.deterministic]

variable (ms) in
theorem parseJudgment_bare (id : String) (threshold : F) {text : String} {obj : Value} {p : Bool}
    (hobj : extractJsonObject tx text = some obj) (hscore : judgedScore tx obj = none)
    (hpass : judgedPass obj = some p) :
    (parseJudgment tx id text threshold ms).verdict = passfail p ∧
      (parseJudgment tx id text threshold ms).score = none := by
  simp [parseJudgment, hobj, hscore, hpass, GateResult.deterministic]

variable (ms) in
theorem parseJudgment_unparsed (id : String) (threshold : F) {text : String}
    (hobj : extractJsonObject tx text = none) :
    (parseJudgment tx id text threshold ms).verdict = .abstain ∧
      (parseJudgment tx id text threshold ms).reason = some "judge_unparseable" := by
  simp [parseJudgment, hobj, GateResult.abstain]

theorem parseJudgment_silent {id text : String} {threshold : F} {obj : Value}
    (hobj : extractJsonObject tx text = some obj) (hscore : judgedScore tx obj = none)
    (hpass : judgedPass obj = none) :
    (parseJudgment tx id text threshold ms).verdict = .abstain := by
  simp [parseJudgment, hobj, hscore, hpass, GateResult.abstain]

/-- An object that was found is graded one way or the other. -/
theorem parseJudgment_found {id text : String} {threshold : F} {obj : Value}
    (hobj : extractJsonObject tx text = some obj) :
    (parseJudgment tx id text threshold ms).reason ≠ some "judge_unparseable" := by
  cases hscore : judgedScore tx obj <;> cases hpass : judgedPass obj <;>
    simp [parseJudgment, hobj, hscore, hpass, GateResult.deterministic, GateResult.abstain]

theorem parseJudgment_congr {id text text' : String} {threshold : F}
    (h : extractJsonObject tx text = extractJsonObject tx text') :
    parseJudgment tx id text threshold ms = parseJudgment tx id text' threshold ms := by
  simp only [parseJudgment, h]

theorem JudgeGate.scored_of_plain (h : ∀ text, judge.Replies complete resp text → Plain tx text)
    (hverdict : (judge.evaluate tx complete ms resp).verdict ≠ .abstain) :
    Scored judge.threshold (judge.evaluate tx complete ms resp) ∨
      judge.DecidesBare tx complete resp (judge.evaluate tx complete ms resp) := by
  obtain ⟨text, htext⟩ := JudgeGate.replies_of_verdict hverdict
  obtain ⟨hside, hrecord, -⟩ := htext.graded tx ms
  cases hobj : extractJsonObject tx text with
  | none =>
    have hsilent := (parseJudgment_unparsed ms judge.id judge.threshold hobj).1
    exact absurd (hside.trans hsilent) hverdict
  | some obj =>
    cases hscore : judgedScore tx obj with
    | some v =>
      have hrange := (h text htext).inRange obj v hobj hscore
      obtain ⟨hside', hrecord'⟩ :=
        parseJudgment_scored ms judge.id judge.threshold hobj hscore
      refine .inl ⟨_, hrecord.trans (hrecord'.trans (score_new_of hrange)), ?_⟩
      rw [hside, hside', passfail_eq_pass, decide_eq_true_iff]
    | none =>
      cases hpass : judgedPass obj with
      | some p =>
        obtain ⟨hside', hrecord'⟩ :=
          parseJudgment_bare ms judge.id judge.threshold hobj hscore hpass
        exact .inr ⟨text, obj, p, htext, hobj, hscore, hpass, hrecord.trans hrecord',
          hside.trans hside'⟩
      | none => exact absurd (hside.trans (parseJudgment_silent hobj hscore hpass)) hverdict

theorem JudgeGate.sound (h : ∀ text, judge.Replies complete resp text → Plain tx text) :
    judge.Sound tx complete ms resp := by
  refine ⟨JudgeGate.scored_of_plain h, ?_⟩
  intro text htext before obj after honly
  obtain ⟨hbefore, hafter⟩ := (h text htext).unbraced before obj after honly
  obtain ⟨cost, heval⟩ := htext.evaluate tx ms
  have hsame := (extract_only honly hbefore hafter).trans honly.object.alone.symm
  rw [heval, parseJudgment_congr hsame]

theorem JudgeGate.Sound.plain (h : judge.Sound tx complete ms resp) {text : String}
    (htext : judge.Replies complete resp text) : Plain tx text := by
  obtain ⟨hside, hrecord, hreason⟩ := htext.graded tx ms
  constructor
  · intro obj v hobj hscore
    obtain ⟨hside', hrecord'⟩ := parseJudgment_scored ms judge.id judge.threshold hobj hscore
    rcases h.scored (hside.trans hside' ▸ passfail_ne_abstain _) with ⟨s, hs, -⟩ | hbare
    · exact (score_new (hrecord'.symm.trans (hrecord.symm.trans hs))).2
    · obtain ⟨text', obj', p, htext', hobj', hnone, -⟩ := hbare
      rw [← htext.unique htext', hobj] at hobj'
      cases hobj'
      rw [hscore] at hnone
      cases hnone
  · intro before obj after honly
    by_contra hbrace
    rw [not_and_or, not_not, not_not] at hbrace
    obtain ⟨-, fields, hfields⟩ := honly.object
    have hunparsed :=
      parseJudgment_unparsed ms judge.id judge.threshold (extract_none honly hbrace)
    have hsingle : (judge.evaluate tx complete ms resp).reason =
        (parseJudgment tx judge.id (String.ofList obj) judge.threshold ms).reason := by
      rw [h.single text htext before obj after honly]
    exact parseJudgment_found (honly.object.alone.trans hfields)
      (hsingle.symm.trans (hreason.trans hunparsed.2))

end judge

-- ---------------------------------------------------------------------------
-- The other gates
-- ---------------------------------------------------------------------------

/-- The gate abstains or records the score it goes by. -/
def NeverFabricates (threshold : F) (r : GateResult F) : Prop :=
  r.verdict ≠ .abstain → Scored threshold r

/-- What is used of `f64`: no count, sum or quotient of what is not negative is negative or NaN,
and what is neither lies on one side of 1. -/
structure Counted (F : Type) [F64 F] : Prop where
  zero_le_zero : (0 : F) ≤ 0
  zero_le_one : (0 : F) ≤ 1
  one_le_one : (1 : F) ≤ 1
  natCast : ∀ n : Nat, (0 : F) ≤ n
  add : ∀ a b : F, 0 ≤ a → 0 ≤ b → 0 ≤ a + b
  div : ∀ (a : F) (n : Nat), 0 ≤ a → 0 < n → 0 ≤ a / (n : F)
  le_one : ∀ a : F, 0 ≤ a → ¬ 1 < a → a ≤ 1

namespace Counted

variable (laws : Counted F)
include laws

theorem sum {xs : List F} (h : ∀ x ∈ xs, 0 ≤ x) : 0 ≤ F64.sum xs := by
  suffices hfold : ∀ a : F, 0 ≤ a → 0 ≤ xs.foldl (· + ·) a from hfold 0 laws.zero_le_zero
  induction xs with
  | nil => exact fun a ha => ha
  | cons x xs ih =>
    intro a ha
    obtain ⟨hx, hxs⟩ := List.forall_mem_cons.mp h
    exact ih hxs (a + x) (laws.add a x ha hx)

theorem jaccard_nonneg (a b : String) : (0 : F) ≤ jaccard a b := by
  unfold jaccard
  dsimp only
  split
  · exact laws.zero_le_one
  · next hunion => exact laws.div _ _ (laws.natCast _) (Nat.pos_of_ne_zero hunion)

theorem agreement_nonneg (lowercase : String → String) (candidate sample : String) :
    (0 : F) ≤ agreement lowercase candidate sample := by
  unfold agreement
  dsimp only
  split
  · exact laws.zero_le_one
  · exact laws.jaccard_nonneg _ _

theorem clampUnit {x : F} (h : 0 ≤ x) : 0 ≤ F64.clampUnit x ∧ F64.clampUnit x ≤ 1 := by
  unfold F64.clampUnit
  split_ifs with _ hhigh
  · exact ⟨laws.zero_le_zero, laws.zero_le_one⟩
  · exact ⟨laws.zero_le_one, laws.one_le_one⟩
  · exact ⟨h, laws.le_one x h hhigh⟩

end Counted

theorem NeverFabricates.of_abstain {threshold : F} {r : GateResult F} (h : r.verdict = .abstain) :
    NeverFabricates threshold r := fun hverdict => absurd h hverdict

theorem ConsistencyGate.never_fabricates (laws : Counted F) (gate : ConsistencyGate F)
    (lowercase : String → String) (complete : ModelRequest → Nat → Option ModelResponse) (ms : Nat)
    (req : ModelRequest) (resp : ModelResponse) :
    NeverFabricates gate.threshold (gate.evaluate lowercase complete ms req resp) := by
  unfold ConsistencyGate.evaluate
  dsimp only
  split
  · exact .of_abstain rfl
  next hsome =>
  intro _
  have hagree : ∀ x ∈ ((List.range gate.k).filterMap
      (complete { req with model := gate.sampleModel })).map
        fun a => agreement lowercase resp.text a.text, (0 : F) ≤ x := by
    intro x hx
    obtain ⟨a, -, rfl⟩ := List.mem_map.mp hx
    exact laws.agreement_nonneg lowercase resp.text a.text
  have hmean := laws.div _ _ (laws.sum hagree) (List.length_pos_iff.mpr hsome)
  refine ⟨_, score_new_of (laws.clampUnit hmean), ?_⟩
  simp [GateResult.deterministic]

theorem DecisionGate.never_fabricates (gate : DecisionGate F) (showFloat : F → String)
    (call : Value → DecisionReply) (ms : Nat) (req : ModelRequest) (resp : ModelResponse) :
    NeverFabricates gate.threshold (gate.evaluate tx showFloat call ms req resp) := by
  unfold DecisionGate.evaluate
  split
  · exact .of_abstain rfl
  · exact .of_abstain rfl
  split
  · exact .of_abstain rfl
  split
  · exact .of_abstain rfl
  split
  · exact .of_abstain rfl
  split
  · exact .of_abstain rfl
  next score _ => exact fun _ => ⟨score, rfl, by simp [GateResult.deterministic]⟩

-- ---------------------------------------------------------------------------
-- The three of them
-- ---------------------------------------------------------------------------

/-- The three gates go by a recorded score, and the judge by the one object of its reply, exactly
when the judge's reply is plain. -/
theorem scored_gates_iff (laws : Counted F) (judge : JudgeGate F) (consistency : ConsistencyGate F)
    (decision : DecisionGate F) (complete : ModelRequest → Except ProviderError ModelResponse)
    (sample : ModelRequest → Nat → Option ModelResponse) (call : Value → DecisionReply)
    (lowercase : String → String) (showFloat : F → String) (ms : Nat) (req : ModelRequest)
    (resp : ModelResponse) :
    (judge.Sound tx complete ms resp ∧
      NeverFabricates consistency.threshold (consistency.evaluate lowercase sample ms req resp) ∧
      NeverFabricates decision.threshold (decision.evaluate tx showFloat call ms req resp)) ↔
        ∀ text, judge.Replies complete resp text → Plain tx text := by
  constructor
  · rintro ⟨hjudge, -, -⟩ text htext
    exact hjudge.plain htext
  · intro hplain
    exact ⟨JudgeGate.sound hplain, consistency.never_fabricates laws lowercase sample ms req resp,
      decision.never_fabricates showFloat call ms req resp⟩

-- ---------------------------------------------------------------------------
-- A score out of ten
-- ---------------------------------------------------------------------------

theorem counted_rat : Counted ℚ where
  zero_le_zero := le_refl 0
  zero_le_one := zero_le_one
  one_le_one := le_refl 1
  natCast := Nat.cast_nonneg
  add _ _ := add_nonneg
  div _ n ha _ := div_nonneg ha n.cast_nonneg
  le_one _ _ := not_lt.mp

def sampleTexts : Texts ℚ := ⟨fun _ => none, some, some⟩

def sampleJudge : JudgeGate ℚ :=
  ⟨"quality", "acme/judge", 1 / 2, "must be correct", ⟨fun _ => none⟩⟩

def sampleConsistency : ConsistencyGate ℚ := ⟨"steady", "acme/small", 3, 1 / 2, ⟨fun _ => none⟩⟩

def sampleDecision : DecisionGate ℚ := ⟨"verify", "jev", 200, 1 / 2, "Is it right?"⟩

def candidate : ModelResponse := ⟨"acme/small", "42", 1, 0, 0, 1, .null⟩

def replying (text : String) : ModelRequest → Except ProviderError ModelResponse :=
  fun req => .ok { candidate with model := req.model, text := text }

/-- What the sample judge makes of a reply. -/
def sampleResult (reply : String) : GateResult ℚ :=
  sampleJudge.evaluate sampleTexts (replying reply) 5 candidate

theorem replies_replying {reply text : String}
    (h : sampleJudge.Replies (replying reply) candidate text) : text = reply := by
  obtain ⟨-, judgment, hok, rfl⟩ := h
  cases hok
  rfl

/-- One brace of each kind is the object's own. -/
theorem unbraced_of_count {text : List Char} {before obj after : List Char}
    (hopen : text.count '\x7b' = 1) (hclose : text.count '\x7d' = 1)
    (h : OnlyObject tx text before obj after) : '\x7b' ∉ before ∧ '\x7d' ∉ after := by
  obtain ⟨⟨body, hobj⟩, -⟩ := h.object
  have hopenObj : 0 < obj.count '\x7b' := List.count_pos_iff.mpr (by simp [hobj])
  have hcloseObj : 0 < obj.count '\x7d' := List.count_pos_iff.mpr (by simp [hobj])
  rw [h.split, List.count_append, List.count_append] at hopen hclose
  constructor
  · intro hmem
    have := List.count_pos_iff.mpr hmem
    omega
  · intro hmem
    have := List.count_pos_iff.mpr hmem
    omega

/-- A judge that grades out of ten passes what it rates low, and no score is recorded. -/
theorem out_of_ten_passes :
    (sampleResult "\x7b\"score\": 2\x7d").verdict = .pass ∧
      (sampleResult "\x7b\"score\": 2\x7d").score = none ∧
      ¬ sampleJudge.Sound sampleTexts (replying "\x7b\"score\": 2\x7d") 5 candidate := by
  have hverdict : (sampleResult "\x7b\"score\": 2\x7d").verdict = .pass := by decide +kernel
  have hnone : (sampleResult "\x7b\"score\": 2\x7d").score = none :=
    Option.isNone_iff_eq_none.mp (by decide +kernel)
  have htwo : (extractJsonObject sampleTexts "\x7b\"score\": 2\x7d").bind
      (judgedScore sampleTexts) = some 2 := by decide +kernel
  refine ⟨hverdict, hnone, fun hsound => ?_⟩
  rcases hsound.scored (by rw [← sampleResult, hverdict]; decide) with ⟨s, hs, -⟩ | hbare
  · cases hnone.symm.trans hs
  · obtain ⟨text, obj, p, htext, hobj, hunscored, -⟩ := hbare
    rw [replies_replying htext] at hobj
    rw [hobj, Option.bind_some, hunscored] at htwo
    cases htwo

example : (sampleResult "By \x7brubric\x7d: \x7b\"score\": 1\x7d").verdict = .abstain := by
  decide +kernel

theorem scored_gates_sample :
    sampleJudge.Sound sampleTexts (replying "Graded: \x7b\"score\": 1\x7d.") 5 candidate ∧
      (sampleResult "Graded: \x7b\"score\": 1\x7d.").verdict = .pass := by
  refine ⟨((scored_gates_iff counted_rat sampleJudge sampleConsistency sampleDecision _
    (fun _ _ => some candidate) (fun _ => .elapsed) id (fun _ => "") 5
    ⟨"acme/small", none, [], 16, .null, .null, false⟩ candidate).mpr ?_).1, by decide +kernel⟩
  intro text htext
  obtain rfl := replies_replying htext
  have hone : (extractJsonObject sampleTexts "Graded: \x7b\"score\": 1\x7d.").bind
      (judgedScore sampleTexts) = some 1 := by decide +kernel
  refine ⟨fun obj v hobj hscore => ?_, fun before obj after =>
    unbraced_of_count (by decide +kernel) (by decide +kernel)⟩
  rw [hobj, Option.bind_some, hscore] at hone
  cases hone
  exact ⟨zero_le_one, le_refl 1⟩

end Firstpass.ModelGates
