import Firstpass.Core.Fingerprint
import Firstpass.Core.JsonObject
import Firstpass.Core.Routing
import Firstpass.Core.TraceDecode
import Firstpass.Proxy.Provider

/-!
# Gates that run a program

The candidate goes to the program's standard input and the verdict comes from its standard
output. What a program does is a parameter, and so are the JSON reader, the lossy decoding of
what it writes to standard error and the quoted form of a string.

A slice that cuts a character panics, and standard input is written before the clock of the
timeout starts.
-/

namespace Firstpass

open Json (Value)
open Routing (Bytes utf8)

def ChatMessage.toValue (m : ChatMessage) : Value :=
  .object [("role", .string m.role), ("content", m.content)]

namespace Subprocess

-- ---------------------------------------------------------------------------
-- Slices of a text, in bytes
-- ---------------------------------------------------------------------------

def byteLen (s : List Char) : Nat := (s.map Char.utf8Size).sum

@[simp]
theorem byteLen_nil : byteLen [] = 0 := rfl

@[simp]
theorem byteLen_cons (c : Char) (s : List Char) : byteLen (c :: s) = c.utf8Size + byteLen s := rfl

/-- `&s[..max]`, which panics inside a character and past the end. -/
def sliceTo : List Char → Nat → Option (List Char)
  | _, 0 => some []
  | [], _ + 1 => none
  | c :: s, max + 1 =>
    if c.utf8Size ≤ max + 1 then (sliceTo s (max + 1 - c.utf8Size)).map (c :: ·) else none

/-- The first `max` bytes end inside a character. -/
def CutsCharacter (s : List Char) (max : Nat) : Prop :=
  ∃ before c after, s = before ++ c :: after ∧
    byteLen before < max ∧ max < byteLen before + c.utf8Size

theorem cutsCharacter_cons {c : Char} {s : List Char} {max : Nat} :
    CutsCharacter (c :: s) max ↔
      0 < max ∧ max < c.utf8Size ∨ c.utf8Size ≤ max ∧ CutsCharacter s (max - c.utf8Size) := by
  constructor
  · rintro ⟨before, d, after, hs, hlow, hhigh⟩
    cases before with
    | nil =>
      cases hs
      exact .inl ⟨hlow, by simpa using hhigh⟩
    | cons b before =>
      cases hs
      rw [byteLen_cons] at hlow hhigh
      exact .inr ⟨by omega, before, d, after, rfl, by omega, by omega⟩
  · rintro (⟨hlow, hhigh⟩ | ⟨hle, before, d, after, rfl, hlow, hhigh⟩)
    · exact ⟨[], c, s, rfl, hlow, by simpa using hhigh⟩
    · exact ⟨c :: before, d, after, rfl, by rw [byteLen_cons]; omega,
        by rw [byteLen_cons]; omega⟩

theorem sliceTo_eq_none {s : List Char} {max : Nat} :
    sliceTo s max = none ↔ byteLen s < max ∨ CutsCharacter s max := by
  induction s generalizing max with
  | nil => cases max <;> simp [sliceTo, CutsCharacter]
  | cons c s ih =>
    have hpos := c.utf8Size_pos
    rw [cutsCharacter_cons, byteLen_cons]
    cases max with
    | zero => simp [sliceTo, hpos.ne']
    | succ max =>
      by_cases hfits : c.utf8Size ≤ max + 1
      · have hshort : byteLen s < max + 1 - c.utf8Size ↔ c.utf8Size + byteLen s < max + 1 := by
          omega
        simp [sliceTo, ih, hshort, hfits, not_lt.mpr hfits]
      · simp only [sliceTo, if_neg hfits, true_iff]
        exact .inr (.inl ⟨max.succ_pos, not_le.mp hfits⟩)

/-- Nothing where it panics. -/
def truncate (s : String) (max : Nat) : Option String :=
  if byteLen s.toList ≤ max then some s
  else (sliceTo s.toList max).map fun head => String.ofList head ++ "…"

theorem truncate_eq_none {s : String} {max : Nat} :
    truncate s max = none ↔ CutsCharacter s.toList max := by
  unfold truncate
  split
  · next hle =>
    refine ⟨nofun, ?_⟩
    rintro ⟨before, c, after, hs, hlow, hhigh⟩
    simp [hs, byteLen] at hle hlow hhigh
    omega
  · next hlong =>
    rw [Option.map_eq_none_iff, sliceTo_eq_none]
    exact or_iff_right fun hshort => hlong hshort.le

-- ---------------------------------------------------------------------------
-- What goes in and what comes out
-- ---------------------------------------------------------------------------

structure SubprocessGate where
  id : String
  program : String
  args : List String
  timeoutMs : Nat

structure GateRequestView where
  model : String
  system : Option String
  messages : List ChatMessage

structure GateInput where
  gateId : String
  candidate : String
  request : GateRequestView

def GateRequestView.toValue (v : GateRequestView) : Value :=
  .object [("model", .string v.model), ("system", (v.system.map Value.string).getD .null),
    ("messages", .array (v.messages.map ChatMessage.toValue))]

def GateInput.toValue (i : GateInput) : Value :=
  .object [("gate_id", .string i.gateId), ("candidate", .string i.candidate),
    ("request", i.request.toValue)]

def SubprocessGate.input (gate : SubprocessGate) (req : ModelRequest) (resp : ModelResponse) :
    GateInput :=
  ⟨gate.id, resp.text, req.model, req.system, req.messages⟩

/-- `serde_json::to_vec`, which refuses no value. -/
def toVec (v : Value) : Except String Bytes := .ok (utf8 v.toText)

structure GateOutput (F : Type) where
  verdict : String
  score : Option F
  reason : Option String
  evidence : Option String

section
variable {F : Type} [F64 F] (tx : Texts F)

def GateOutput.ofFields (fs : List (String × Value)) : Option (GateOutput F) := do
  return {
    verdict := ← readField fs "verdict" (required stringOf)
    score := ← readField fs "score" (optional (floatOf tx))
    reason := ← readField fs "reason" (optional stringOf)
    evidence := ← readField fs "evidence" (optional stringOf) }

/-- The fields in their order; those left out at the end have their defaults. -/
def GateOutput.ofElems (elems : List Value) : Option (GateOutput F) :=
  if 4 < elems.length then none
  else do
    return {
      verdict := ← required stringOf elems[0]?
      score := ← optional (floatOf tx) elems[1]?
      reason := ← optional stringOf elems[2]?
      evidence := ← optional stringOf elems[3]? }

/-- A derived reader takes a struct as an object and as an array. -/
def GateOutput.ofValue : Value → Option (GateOutput F)
  | .object fs => GateOutput.ofFields tx fs
  | .array elems => GateOutput.ofElems tx elems
  | _ => none

end

-- ---------------------------------------------------------------------------
-- Running the program
-- ---------------------------------------------------------------------------

inductive ExitStatus
  | exited (code : Int)
  | signalled
  deriving DecidableEq

def ExitStatus.success (s : ExitStatus) : Bool := s = .exited 0

def ExitStatus.code : ExitStatus → Option Int
  | .exited code => some code
  | .signalled => none

/-- What becomes of a program that is started with a standard input and a timeout. -/
inductive Child
  | unspawned (error : String)
  /-- It neither takes its input to the end nor lets go of it. -/
  | stalled
  | waitFailed (error : String)
  | elapsed
  | finished (status : ExitStatus) (stdout stderr : Bytes)

inductive GateRunError
  | timeout
  | spawn (error : String)
  | nonZero (code : Int) (stderr : String)

/-- How a call ends, if it does. -/
inductive Ended (α : Type)
  | returned (a : α)
  | panicked
  | hung

section
variable {F : Type} [F64 F] (tx : Texts F) (os : String → List String → Nat → Bytes → Child)
  (json : Bytes → Option Value) (jsonError : Bytes → String) (lossy : Bytes → String)
  (debug : String → String) (ms : Nat)

def SubprocessGate.run (gate : SubprocessGate) (payload : Bytes) :
    Ended (Except GateRunError Bytes) :=
  match os gate.program gate.args gate.timeoutMs payload with
  | .unspawned e => .returned (.error (.spawn e))
  | .stalled => .hung
  | .waitFailed e => .returned (.error (.spawn e))
  | .elapsed => .returned (.error .timeout)
  | .finished status stdout stderr =>
    if status.success then .returned (.ok stdout)
    else .returned (.error (.nonZero (status.code.getD (-1)) (lossy stderr)))

def SubprocessGate.abstain (gate : SubprocessGate) (reason detail : String) : GateResult F :=
  { GateResult.abstain gate.id reason ms with evidenceRef := some detail }

def SubprocessGate.parseOutput (gate : SubprocessGate) (stdout : Bytes) : GateResult F :=
  match (json stdout).bind (GateOutput.ofValue tx) with
  | none => gate.abstain ms Reason.gateCrash ("bad stdout json: " ++ jsonError stdout)
  | some out =>
    let graded (verdict : Verdict) : GateResult F :=
      { gateId := gate.id
        verdict := verdict
        score := out.score.bind Score.new
        costUsd := 0
        ms := ms
        reason := out.reason
        evidenceRef := out.evidence }
    match out.verdict with
    | "pass" => graded .pass
    | "fail" => graded .fail
    | "abstain" => graded .abstain
    | other => gate.abstain ms Reason.gateCrash ("unknown verdict " ++ debug other)

def SubprocessGate.evaluate (gate : SubprocessGate) (req : ModelRequest) (resp : ModelResponse) :
    Ended (GateResult F) :=
  match toVec (gate.input req resp).toValue with
  | .error e => .returned (gate.abstain ms Reason.gateCrash ("serialize input: " ++ e))
  | .ok payload =>
    match gate.run os lossy payload with
    | .panicked => .panicked
    | .hung => .hung
    | .returned (.ok stdout) => .returned (gate.parseOutput tx json jsonError debug ms stdout)
    | .returned (.error .timeout) =>
      .returned (gate.abstain ms Reason.timeout "gate timed out")
    | .returned (.error (.spawn e)) =>
      .returned (gate.abstain ms Reason.gateCrash ("spawn: " ++ e))
    | .returned (.error (.nonZero code stderr)) =>
      match truncate stderr 200 with
      | none => .panicked
      | some head =>
        .returned (gate.abstain ms Reason.gateCrash ("exit " ++ toString code ++ ": " ++ head))

-- ---------------------------------------------------------------------------
-- What a verdict rests on
-- ---------------------------------------------------------------------------

/-- The program that a gate starts for a candidate. -/
def SubprocessGate.child (gate : SubprocessGate) (req : ModelRequest) (resp : ModelResponse) :
    Child :=
  os gate.program gate.args gate.timeoutMs (utf8 (gate.input req resp).toValue.toText)

/-- A program ended well and wrote an object with this verdict. -/
def Reported (child : Child) (verdict : Verdict) : Prop :=
  ∃ stdout stderr fields, child = .finished (.exited 0) stdout stderr ∧
    json stdout = some (.object fields) ∧
    readField fields "verdict" (required stringOf) = some verdict.asStr

/-- The call returns a result, and one that is no abstain is what the program reported. -/
def SubprocessGate.Yields (gate : SubprocessGate) (req : ModelRequest) (resp : ModelResponse) :
    Prop :=
  ∃ r : GateResult F, gate.evaluate tx os json jsonError lossy debug ms req resp = .returned r ∧
    (r.verdict ≠ .abstain → Reported json (gate.child os req resp) r.verdict)

/-- A program lets go of its input, a failed one has no character across the 200th byte of its
error text, and one that ended well wrote no array that reads as a pass or a fail. -/
def Manageable : Child → Prop
  | .stalled => False
  | .finished status stdout stderr =>
    if status.success then
      ∀ elems out, json stdout = some (.array elems) → GateOutput.ofElems tx elems = some out →
        out.verdict ≠ "pass" ∧ out.verdict ≠ "fail"
    else ¬ CutsCharacter (lossy stderr).toList 200
  | _ => True

theorem GateOutput.ofFields_verdict {fs : List (String × Value)} {out : GateOutput F}
    (h : GateOutput.ofFields tx fs = some out) :
    readField fs "verdict" (required stringOf) = some out.verdict := by
  simp only [GateOutput.ofFields, Option.bind_eq_bind, Option.bind_eq_some_iff,
    Option.pure_def, Option.some.injEq] at h
  obtain ⟨verdict, hverdict, score, -, reason, -, evidence, -, rfl⟩ := h
  exact hverdict

variable {tx os json jsonError lossy debug ms} {gate : SubprocessGate} {req : ModelRequest}
  {resp : ModelResponse}

theorem SubprocessGate.parseOutput_verdict {stdout : Bytes} {verdict : Verdict}
    (hverdict : verdict ≠ .abstain) :
    (gate.parseOutput tx json jsonError debug ms stdout).verdict = verdict ↔
      ∃ value out, json stdout = some value ∧ GateOutput.ofValue tx value = some out ∧
        out.verdict = verdict.asStr := by
  unfold SubprocessGate.parseOutput
  cases hread : (json stdout).bind (GateOutput.ofValue tx) with
  | none =>
    refine ⟨fun h => absurd h.symm hverdict, ?_⟩
    rintro ⟨value, out, hjson, hout, -⟩
    simp [hjson, hout] at hread
  | some out =>
    obtain ⟨value, hjson, hout⟩ := Option.bind_eq_some_iff.mp hread
    have hread : (∃ value' out', json stdout = some value' ∧
        GateOutput.ofValue tx value' = some out' ∧ out'.verdict = verdict.asStr) ↔
          out.verdict = verdict.asStr := by
      simp [hjson, hout]
    rw [hread]
    dsimp only
    split
    · next h => cases verdict <;> simp [h, Verdict.asStr]
    · next h => cases verdict <;> simp [h, Verdict.asStr]
    · next h => cases verdict <;> simp_all [Verdict.asStr]
    · next hpass hfail _ =>
      refine ⟨fun h => absurd h.symm hverdict, fun h => ?_⟩
      cases verdict with
      | pass => exact absurd h hpass
      | fail => exact absurd h hfail
      | abstain => exact absurd rfl hverdict

theorem SubprocessGate.evaluate_eq :
    gate.evaluate tx os json jsonError lossy debug ms req resp =
      match gate.child os req resp with
      | .unspawned e | .waitFailed e =>
        .returned (gate.abstain ms Reason.gateCrash ("spawn: " ++ e))
      | .stalled => .hung
      | .elapsed => .returned (gate.abstain ms Reason.timeout "gate timed out")
      | .finished status stdout stderr =>
        if status.success then .returned (gate.parseOutput tx json jsonError debug ms stdout)
        else
          match truncate (lossy stderr) 200 with
          | none => .panicked
          | some head => .returned (gate.abstain ms Reason.gateCrash
              ("exit " ++ toString (status.code.getD (-1)) ++ ": " ++ head)) := by
  simp only [SubprocessGate.evaluate, toVec, SubprocessGate.run, SubprocessGate.child]
  cases os gate.program gate.args gate.timeoutMs (utf8 (gate.input req resp).toValue.toText) with
  | finished status stdout stderr => cases hsuccess : status.success <;> simp [hsuccess]
  | _ => rfl

/-- A result that abstains rests on nothing. -/
theorem SubprocessGate.yields_abstain {reason detail : String}
    (h : gate.evaluate tx os json jsonError lossy debug ms req resp =
      .returned (gate.abstain ms reason detail)) :
    gate.Yields tx os json jsonError lossy debug ms req resp :=
  ⟨_, h, fun hne => absurd rfl hne⟩

theorem SubprocessGate.yields_output {stdout stderr : Bytes}
    (hchild : gate.child os req resp = .finished (.exited 0) stdout stderr) :
    gate.Yields tx os json jsonError lossy debug ms req resp ↔
      ∀ elems out, json stdout = some (.array elems) → GateOutput.ofElems tx elems = some out →
        out.verdict ≠ "pass" ∧ out.verdict ≠ "fail" := by
  have heval : gate.evaluate tx os json jsonError lossy debug ms req resp =
      .returned (gate.parseOutput tx json jsonError debug ms stdout) := by
    rw [gate.evaluate_eq, hchild]
    rfl
  have hgraded : ∀ verdict : Verdict, verdict ≠ .abstain →
      ((gate.parseOutput tx json jsonError debug ms stdout).verdict = verdict ↔
        ∃ value out, json stdout = some value ∧ GateOutput.ofValue tx value = some out ∧
          out.verdict = verdict.asStr) := fun _ => gate.parseOutput_verdict
  constructor
  · rintro ⟨r, hr, hreported⟩ elems out hjson hout
    rw [heval] at hr
    cases hr
    -- An array is no object, so nothing was reported.
    have hnone : ∀ verdict : Verdict, verdict ≠ .abstain → out.verdict ≠ verdict.asStr := by
      intro verdict hne heq
      have hverdict := (hgraded verdict hne).mpr ⟨_, out, hjson, hout, heq⟩
      obtain ⟨_, _, fields, hfinished, hobject, -⟩ := hreported (hverdict ▸ hne)
      rw [hchild] at hfinished
      cases hfinished
      simp [hjson] at hobject
    exact ⟨hnone .pass nofun, hnone .fail nofun⟩
  · intro hnone
    refine ⟨_, heval, fun hne => ?_⟩
    obtain ⟨value, out, hjson, hout, hverdict⟩ := (hgraded _ hne).mp rfl
    cases value with
    | object fields =>
      exact ⟨stdout, stderr, fields, hchild, hjson,
        (GateOutput.ofFields_verdict tx hout).trans (congrArg some hverdict)⟩
    | array elems =>
      obtain ⟨hpass, hfail⟩ := hnone elems out hjson hout
      cases hgrade : (gate.parseOutput tx json jsonError debug ms stdout).verdict with
      | pass => exact absurd (hverdict.trans (congrArg Verdict.asStr hgrade)) hpass
      | fail => exact absurd (hverdict.trans (congrArg Verdict.asStr hgrade)) hfail
      | abstain => exact absurd hgrade hne
    | _ => simp [GateOutput.ofValue] at hout

/-- A gate that runs a program yields a verdict exactly when the program is manageable. -/
theorem SubprocessGate.yields_iff :
    gate.Yields tx os json jsonError lossy debug ms req resp ↔
      Manageable tx json lossy (gate.child os req resp) := by
  cases hchild : gate.child os req resp with
  | unspawned e | waitFailed e | elapsed =>
    have heval : gate.evaluate tx os json jsonError lossy debug ms req resp = _ := gate.evaluate_eq
    rw [hchild] at heval
    exact iff_of_true (gate.yields_abstain heval) trivial
  | stalled =>
    refine ⟨?_, False.elim⟩
    rintro ⟨r, hr, -⟩
    rw [gate.evaluate_eq, hchild] at hr
    cases hr
  | finished status stdout stderr =>
    by_cases hsuccess : status = .exited 0
    · subst hsuccess
      exact gate.yields_output hchild
    · have hfailed : status.success = false := decide_eq_false hsuccess
      simp only [Manageable, hfailed, Bool.false_eq_true, if_false, ← truncate_eq_none]
      have heval : gate.evaluate tx os json jsonError lossy debug ms req resp = _ :=
        gate.evaluate_eq
      simp only [hchild, hfailed, Bool.false_eq_true, if_false] at heval
      cases hhead : truncate (lossy stderr) 200 with
      | none =>
        rw [hhead] at heval
        refine iff_of_false ?_ (fun h => h rfl)
        rintro ⟨r, hr, -⟩
        cases heval.symm.trans hr
      | some head =>
        rw [hhead] at heval
        exact iff_of_true (gate.yields_abstain heval) nofun

end

-- ---------------------------------------------------------------------------
-- A program that fails with an error text
-- ---------------------------------------------------------------------------

def sampleGate : SubprocessGate := ⟨"lint", "./lint", [], 1000⟩

def sampleRequest : ModelRequest := ⟨"m", none, [.text "user" "hi"], 16, .null, .null, false⟩

def sampleResponse : ModelResponse := ⟨"m", "hello", 1, 0, 0, 1, .null⟩

/-- A program that exits with 1 whatever it is given, and writes `stderr`. -/
def failing (stderr : Bytes) : String → List String → Nat → Bytes → Child :=
  fun _ _ _ _ => .finished (.exited 1) [] stderr

def decoded (bytes : Bytes) : String :=
  (String.fromUTF8? ⟨bytes.toArray⟩).getD "\uFFFD"

def sampleTexts : Texts ℚ := ⟨fun _ => none, some, some⟩

/-- An odd byte and a hundred characters of two. -/
def longError : String := String.ofList ('!' :: List.replicate 99 'é' ++ ['é'])

theorem fromUTF8?_utf8 (s : String) : String.fromUTF8? ⟨(utf8 s).toArray⟩ = some s := by
  have hbytes : (utf8 s).toArray = s.toByteArray.data := by
    simp [utf8, ByteArray.toList, ConfigFile.toList_loop]
  rw [hbytes, String.fromUTF8?, dif_pos s.isValidUTF8]
  rfl

theorem decoded_utf8 (s : String) : decoded (utf8 s) = s := by
  rw [decoded, fromUTF8?_utf8, Option.getD_some]

theorem longError_cut : CutsCharacter longError.toList 200 := by
  have hone : ('!' : Char).utf8Size = 1 := rfl
  have htwo : ('é' : Char).utf8Size = 2 := rfl
  have hlen : byteLen ('!' :: List.replicate 99 'é') = 199 := by
    rw [byteLen, List.map_cons, List.map_replicate, List.sum_cons, List.sum_replicate, hone, htwo]
    rfl
  refine ⟨'!' :: List.replicate 99 'é', 'é', [], String.toList_ofList, ?_, ?_⟩
  · rw [hlen]
    decide
  · rw [hlen, htwo]
    decide

/-- An error text with a character across its 200th byte brings the call down. -/
theorem long_error_panics :
    sampleGate.evaluate sampleTexts (failing (utf8 longError)) (fun _ => none) (fun _ => "")
        decoded id 5 sampleRequest sampleResponse = .panicked ∧
      ¬ sampleGate.Yields sampleTexts (failing (utf8 longError)) (fun _ => none) (fun _ => "")
        decoded id 5 sampleRequest sampleResponse := by
  have htruncate : truncate (decoded (utf8 longError)) 200 = none := by
    rw [decoded_utf8, truncate_eq_none]
    exact longError_cut
  have hpanics : sampleGate.evaluate sampleTexts (failing (utf8 longError)) (fun _ => none)
      (fun _ => "") decoded id 5 sampleRequest sampleResponse = .panicked := by
    have hfailed : (ExitStatus.exited 1).success = false := rfl
    simp [SubprocessGate.evaluate_eq, SubprocessGate.child, failing, hfailed, htruncate]
  refine ⟨hpanics, ?_⟩
  rintro ⟨r, hr, -⟩
  cases hpanics.symm.trans hr

end Subprocess

end Firstpass
