import Firstpass.Core.TraceRoundTrip
import Firstpass.Lib.LineFeed
import Firstpass.Proxy.Inbound
import Firstpass.Proxy.StoreDurable
import Mathlib.Data.List.TakeWhile

/-!
# Exporting and verifying receipts

Receipts are exported as one line of JSON each, and verified from the lines alone. What the JSON
reader says of a line it cannot read, and the quoted form of a string, are parameters.
-/

namespace Firstpass.ReceiptExport

open HashChain (verifyChain genesisHash)
open Inbound (trim isWhitespace)

-- ---------------------------------------------------------------------------
-- The lines of a text
-- ---------------------------------------------------------------------------

def stripReturn (line : List Char) : List Char :=
  if line.getLast? = some '\r' then line.dropLast else line

/-- `str::lines`: what follows the last line feed is a line too, unless it is empty. -/
def lines (text : String) : List String :=
  let rest := (text.toList.splitOn '\n').getLastD []
  ((LineFeed.lines '\n' text.toList).map stripReturn ++ if rest = [] then [] else [rest]).map
    String.ofList

example : lines "a\r\n\nb\r" = ["a", "", "b\r"] := by decide

-- ---------------------------------------------------------------------------
-- Export, parse and verify
-- ---------------------------------------------------------------------------

section
variable {F : Type} [F64 F] (tx : Texts F) (serdeError : String → String)

/-- The writer refuses no trace. -/
def exportReceiptsJsonl (traces : List (Trace F)) : String :=
  traces.foldl (fun out t => out ++ t.toText ++ "\n") ""

/-- The lines from the `i`th on. -/
def parseLines (i : Nat) : List String → Except String (List (Trace F))
  | [] => .ok []
  | line :: rest =>
    if trim line = "" then parseLines (i + 1) rest
    else
      match Trace.fromStr tx line with
      | none => .error ("line " ++ toString (i + 1) ++ ": " ++ serdeError line)
      | some t => (parseLines (i + 1) rest).map (t :: ·)

def parseReceiptJsonl (text : String) : Except String (List (Trace F)) :=
  parseLines tx serdeError 0 (lines text)

end

structure VerifyReport where
  receipts : Nat
  valid : Bool
  brokenAt : Option Nat
  detail : Option String
  deriving DecidableEq

section
variable {F : Type} [F64 F] (debug : String → String) (sha256Hex : String → String)

def errorText : HashChain.Error → String
  | .badModelRef reference =>
    "invalid model reference " ++ debug reference ++ " (expected `provider/model`)"
  | .unknownModel model => "unknown model " ++ debug model ++ " — add it to the price table"
  | .chainBroken index detail =>
    "hash chain broken at index " ++ toString index ++ ": " ++ detail
  | .json detail => "json error: " ++ detail

def verifyReceipts (traces : List (Trace F)) : VerifyReport :=
  match verifyChain sha256Hex traces genesisHash with
  | .ok () => ⟨traces.length, true, none, none⟩
  | .error (.chainBroken index detail) => ⟨traces.length, false, some index, some detail⟩
  | .error e => ⟨traces.length, false, none, some (errorText debug e)⟩

theorem verifyReceipts_receipts (ts : List (Trace F)) :
    (verifyReceipts debug sha256Hex ts).receipts = ts.length := by
  unfold verifyReceipts
  split <;> rfl

theorem verifyReceipts_valid (ts : List (Trace F)) :
    (verifyReceipts debug sha256Hex ts).valid = true ↔
      verifyChain sha256Hex ts genesisHash = .ok () := by
  unfold verifyReceipts
  split
  · next h => simp [h]
  · next h => simp [h]
  · next h => simp [h]

theorem verifyReceipts_brokenAt (ts : List (Trace F)) (i : Nat) :
    (verifyReceipts debug sha256Hex ts).brokenAt = some i ↔
      ∃ detail, verifyChain sha256Hex ts genesisHash = .error (.chainBroken i detail) := by
  unfold verifyReceipts
  split
  · next h => simp [h]
  · next index detail h =>
    rw [h]
    constructor
    · rintro ⟨⟩
      exact ⟨detail, rfl⟩
    · rintro ⟨_, ⟨⟩⟩
      rfl
  · next e hne h =>
    rw [h]
    constructor
    · rintro ⟨⟩
    · rintro ⟨detail, ⟨⟩⟩
      exact (hne i detail rfl).elim

end

-- ---------------------------------------------------------------------------
-- An export is read back
-- ---------------------------------------------------------------------------

section
variable {F : Type} [F64 F] {tx : Texts F}

theorem toList_export (ts : List (Trace F)) :
    (exportReceiptsJsonl ts).toList = ts.flatMap fun t => Json.print t.toValue ++ ['\n'] := by
  suffices h : ∀ out : String,
      (ts.foldl (fun out t => out ++ t.toText ++ "\n") out).toList =
        out.toList ++ ts.flatMap fun t => Json.print t.toValue ++ ['\n'] by
    simpa [exportReceiptsJsonl] using h ""
  induction ts with
  | nil => simp
  | cons t ts ih =>
    intro out
    rw [List.foldl_cons, ih]
    simp [Trace.toText]

theorem splitOn_export (ts : List (Trace F)) :
    (exportReceiptsJsonl ts).toList.splitOn '\n' =
      (ts.map fun t => Json.print t.toValue) ++ [[]] := by
  rw [toList_export]
  induction ts with
  | nil => rfl
  | cons t ts ih =>
    have hline : '\n' ∉ Json.print t.toValue := by
      intro h
      exact absurd (Json.plain_print t.toValue _ h) (by decide)
    rw [List.flatMap_cons, List.append_assoc, List.singleton_append,
      List.splitOn_append_cons_self_of_not_mem hline, ih]
    rfl

theorem stripReturn_print (v : Json.Value) : stripReturn (Json.print v) = Json.print v := by
  refine if_neg fun h => ?_
  exact absurd (Json.plain_print v _ (List.mem_of_getLast? h)) (by decide)

theorem lines_export (ts : List (Trace F)) :
    lines (exportReceiptsJsonl ts) = ts.map Trace.toText := by
  simp only [lines, LineFeed.lines, splitOn_export, List.dropLast_concat, List.map_map]
  simp [stripReturn_print, Function.comp_def, Trace.toText]

theorem trim_ne_empty {c : Char} (hc : isWhitespace c = false) (rest : List Char) :
    trim (String.ofList (c :: rest)) ≠ "" := by
  intro h
  have hall : ∀ d ∈ (c :: rest).reverse, isWhitespace d = true := by
    refine List.dropWhile_eq_nil_iff.mp ?_
    simpa [trim, hc, String.ofList_eq_empty_iff] using h
  exact absurd (hall c (by simp)) (by simp [hc])

theorem trim_toText (t : Trace F) : trim t.toText ≠ "" := by
  have hopen : isWhitespace '\x7b' = false := by decide
  obtain ⟨rest, hrest⟩ := Store.print_object (t.fields.filterMap fun f => f.2.map (f.1, ·))
  rw [Trace.toText, Trace.toValue, record, hrest]
  exact trim_ne_empty hopen rest

theorem parseLines_toText (htx : tx.FloatsReadBack) (serdeError : String → String)
    {ts : List (Trace F)} (h : ∀ t ∈ ts, t.Fits tx) (i : Nat) :
    parseLines tx serdeError i (ts.map Trace.toText) = .ok ts := by
  induction ts generalizing i with
  | nil => rfl
  | cons t ts ih =>
    have hread := Trace.fromStr_toText htx (h t List.mem_cons_self)
    have hrest := ih (fun u hu => h u (List.mem_cons_of_mem t hu)) (i + 1)
    simp only [List.map_cons, parseLines, trim_toText, if_false, hread, hrest]
    rfl

theorem parseReceiptJsonl_export (htx : tx.FloatsReadBack) (serdeError : String → String)
    {ts : List (Trace F)} (h : ∀ t ∈ ts, t.Fits tx) :
    parseReceiptJsonl tx serdeError (exportReceiptsJsonl ts) = .ok ts := by
  rw [parseReceiptJsonl, lines_export]
  exact parseLines_toText htx serdeError h 0

/-- The trace reader is one the store may run on, whatever the links of the traces. -/
def readerEnv (htx : tx.FloatsReadBack) (mode : Store.ReceiptsMode)
    (sha256Hex serdeError : String → String) : Store.StoreEnv F where
  mode := mode
  sha256Hex := sha256Hex
  fromText text :=
    match Trace.fromStr tx text with
    | some t => .ok t
    | none => .error (serdeError text)
  offered := Trace.Fits tx
  roundTrip := by
    intro t ht prevHash
    have hread : Trace.fromStr tx (Store.toText (t.withPrevHash prevHash)) =
        some (t.withPrevHash prevHash) := Trace.fromStr_toText htx (ht.withPrevHash prevHash)
    rw [hread]

/-- The text of a trace whose numbers are finite is read as that trace, with its hash, so an
export is read as the traces it was made of, and verified exactly as they are. -/
theorem receipts_round_trip (htx : tx.FloatsReadBack)
    (sha256Hex serdeError debug : String → String) :
    (∀ t : Trace F, t.Fits tx →
      ∃ t', Trace.fromStr tx t.toText = some t' ∧ t' = t ∧ t'.hash sha256Hex = t.hash sha256Hex) ∧
    ∀ ts : List (Trace F), (∀ t ∈ ts, t.Fits tx) →
      ∃ parsed, parseReceiptJsonl tx serdeError (exportReceiptsJsonl ts) = .ok parsed ∧
        parsed = ts ∧
        (verifyReceipts debug sha256Hex parsed).receipts = ts.length ∧
        ((verifyReceipts debug sha256Hex parsed).valid = true ↔
          verifyChain sha256Hex ts genesisHash = .ok ()) ∧
        ∀ i, (verifyReceipts debug sha256Hex parsed).brokenAt = some i ↔
          ∃ detail, verifyChain sha256Hex ts genesisHash = .error (.chainBroken i detail) := by
  constructor
  · intro t ht
    exact ⟨t, Trace.fromStr_toText htx ht, rfl, rfl⟩
  · intro ts hts
    exact ⟨ts, parseReceiptJsonl_export htx serdeError hts, rfl,
      verifyReceipts_receipts debug sha256Hex ts, verifyReceipts_valid debug sha256Hex ts,
      verifyReceipts_brokenAt debug sha256Hex ts⟩

end

-- ---------------------------------------------------------------------------
-- A concrete reader of integral floats
-- ---------------------------------------------------------------------------

/-- The integral float that a text such as `-12.0` stands for. -/
def readIntegral (token : List Char) : Option ℚ :=
  match token.reverse with
  | '0' :: '.' :: digits =>
    let n : ℚ := Nat.ofDigitChars 10 (Json.unsigned digits.reverse) 0
    some (if digits.reverse.head? = some '-' then -n else n)
  | _ => none

def integralTexts : Texts ℚ := ⟨readIntegral, some, some⟩

theorem integralTexts_floatsReadBack : integralTexts.FloatsReadBack := by
  intro q text htext
  by_cases hden : q.den = 1
  · have hq : (q.num : ℚ) = q := Rat.den_eq_one_iff q |>.mp hden
    have hchars : text.text =
        (if q < 0 then ['-'] else []) ++ Nat.toDigits 10 q.num.natAbs ++ ['.', '0'] := by
      simp only [F64.text, hden, if_true, Option.some.injEq] at htext
      rw [← htext]
    have hread : Nat.ofDigitChars 10 (Nat.toDigits 10 q.num.natAbs) 0 = q.num.natAbs :=
      Nat.ofDigitChars_ten_toDigits
    show readIntegral text.text = some q
    rw [hchars]
    by_cases hneg : q < 0
    · have hnum : (q.num.natAbs : ℤ) = -q.num := by
        have := Rat.num_neg.mpr hneg
        omega
      have hvalue : -(q.num.natAbs : ℚ) = q := by
        rw [← Int.cast_natCast, hnum, Int.cast_neg, neg_neg, hq]
      simp [-Nat.cast_natAbs, readIntegral, hneg, Json.unsigned, hread, hvalue]
    · have hnum : (q.num.natAbs : ℤ) = q.num := by
        have := Rat.num_nonneg.mpr (not_lt.mp hneg)
        omega
      have hvalue : (q.num.natAbs : ℚ) = q := by
        rw [← Int.cast_natCast, hnum, hq]
      have hsign : (Nat.toDigits 10 q.num.natAbs).head? ≠ some '-' := fun hhead =>
        Json.not_mem_toDigits rfl (List.mem_of_mem_head? hhead)
      simp [-Nat.cast_natAbs, readIntegral, hneg, Json.unsigned, hsign, hread, hvalue]
  · simp [F64.text, hden] at htext

/-- A receipt with a gated attempt, some skipped fields and some that are there. -/
def sampleReceipt : Trace ℚ :=
  { Store.sampleTrace "01890a5d-ac96-774b-bcce-b302099a2001" with
    mode := .enforce
    attempts := [⟨0, "anthropic/claude-haiku-4-5", "anthropic", 120, 0, 40, 12, 1, 350,
      [⟨"non-empty", .pass, none, 0, 3, some "short", none⟩], .pass, true⟩]
    final := ⟨some 0, .attempt, 1, 0, 353, 0, 5, none, 4⟩
    decisionPrior := some [1, 0]
    routeIx := some 2
    predictedPass := some 1 }

theorem finite_intCast (n : ℤ) : Finite (n : ℚ) := by simp [Finite, F64.text]

theorem finite_zero : Finite (0 : ℚ) := finite_intCast 0

theorem finite_one : Finite (1 : ℚ) := finite_intCast 1

theorem sampleReceipt_attempts : ∀ a ∈ sampleReceipt.attempts, a.Fits := by
  intro a ha
  obtain rfl := List.mem_singleton.mp ha
  refine ⟨by decide, by decide, by decide, by decide, by decide, finite_one, by decide, ?_⟩
  intro g hg
  obtain rfl := List.mem_singleton.mp hg
  exact ⟨by rintro _ ⟨⟩, finite_zero, by decide⟩

theorem sampleReceipt_fits : sampleReceipt.Fits integralTexts where
  traceId := rfl
  ts := rfl
  policy := ⟨by rintro _ ⟨⟩⟩
  features := by constructor <;> decide
  attempts := sampleReceipt_attempts
  deferred := by rintro _ ⟨⟩
  final :=
    { servedRung := by rintro _ ⟨⟩; decide
      totalCostUsd := finite_one
      gateCostUsd := finite_zero
      totalLatencyMs := by decide
      escalations := by decide
      counterfactualBaselineUsd := finite_intCast 5
      cacheSource := by rintro _ ⟨⟩
      savingsUsd := finite_intCast 4 }
  probe := by rintro _ ⟨⟩
  rollout := by rintro _ ⟨⟩
  shadow := by rintro _ ⟨⟩
  routeIx := by rintro _ ⟨⟩; decide
  predictedPass := by rintro _ ⟨⟩; exact finite_one
  decisionPrior := by
    rintro _ ⟨⟩
    simp [finite_zero, finite_one]
  elastic := by rintro _ ⟨⟩
  risk := by rintro _ ⟨⟩
  experiment := by rintro _ ⟨⟩

theorem receipts_round_trip_sample :
    Trace.fromStr integralTexts sampleReceipt.toText = some sampleReceipt ∧
      ∃ parsed, parseReceiptJsonl integralTexts id
          (exportReceiptsJsonl [sampleReceipt, sampleReceipt]) = .ok parsed ∧
        parsed = [sampleReceipt, sampleReceipt] ∧
        ((verifyReceipts id id parsed).valid = true ↔
          verifyChain id [sampleReceipt, sampleReceipt] genesisHash = .ok ()) := by
  obtain ⟨hread, hexport⟩ := receipts_round_trip integralTexts_floatsReadBack id id id
  obtain ⟨t', ht', rfl, -⟩ := hread sampleReceipt sampleReceipt_fits
  obtain ⟨parsed, hparsed, heq, -, hvalid, -⟩ :=
    hexport [sampleReceipt, sampleReceipt] (by simp [sampleReceipt_fits])
  exact ⟨ht', parsed, hparsed, heq, hvalid⟩

end Firstpass.ReceiptExport
