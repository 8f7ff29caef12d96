import Firstpass.Proxy.TokenUsage

/-!
# The decoders of token usage agree

A usage object stands for one split of tokens, whichever decoder reads it. This module
says what split that is, what it is for an event stream to report it, and exactly when the
three decoders all find it.
-/

namespace Firstpass.TokenUsage

open Json (Value pointer_cons)
open Responses (typeOf)
open Routing (Bytes utf8)
open Inbound (Body Dialect)
open LineFeed (lines lines_single lastReport lastReport_eq_none feed_lines foldl_report)

-- ---------------------------------------------------------------------------
-- What usage objects and streams report
-- ---------------------------------------------------------------------------

/-- The split that the usage object of a value stands for, if it has one of the dialect. -/
def usageIn (v : Value) : Dialect → Option Split
  | .anthropic =>
    (tokensAt? v ["usage", "input_tokens"]).bind fun inTokens =>
      (tokensAt? v ["usage", "output_tokens"]).map fun outTokens =>
        ⟨inTokens, tokensAt v ["usage", "cache_creation_input_tokens"],
          tokensAt v ["usage", "cache_read_input_tokens"], outTokens⟩
  | .openai =>
    (tokensAt? v ["usage", "prompt_tokens"]).bind fun prompt =>
      (tokensAt? v ["usage", "completion_tokens"]).map fun outTokens =>
        inclusiveSplit prompt (tokensAt v ["usage", "prompt_tokens_details", "cached_tokens"])
          outTokens
  | .gemini =>
    (tokensAt? v ["usageMetadata", "promptTokenCount"]).map fun _ => geminiSplit v

/-- The input tokens that a provider reports: in two dialects the prompt count includes the
cached part. -/
def reportedInput (v : Value) : Dialect → Nat
  | .anthropic => tokensAt v ["usage", "input_tokens"] +
      tokensAt v ["usage", "cache_creation_input_tokens"] +
      tokensAt v ["usage", "cache_read_input_tokens"]
  | .openai => tokensAt v ["usage", "prompt_tokens"]
  | .gemini => tokensAt v ["usageMetadata", "promptTokenCount"]

/-- A reply of a dialect: it has a usage object of the dialect and none of another. -/
structure IsReply (v : Value) (dialect : Dialect) (s : Split) : Prop where
  usage : usageIn v dialect = some s
  gemini : dialect ≠ .gemini → v.pointer ["usageMetadata", "promptTokenCount"] = none
  openai : dialect = .anthropic → v.pointer ["usage", "prompt_tokens"] = none

/-- What the usage object of an Anthropic event reports of a counter. The counts of a
`message_delta` are cumulative: they stand in place of those of `message_start`. -/
def countIn (key : String) (e : Value) : Option Nat :=
  match typeOf e with
  | some "message_start" => tokensAt? e ["message", "usage", key]
  | some "message_delta" => tokensAt? e ["usage", key]
  | _ => none

def lastUsage (es : List Value) (dialect : Dialect) : Split :=
  (lastReport (usageIn · dialect) es).getD .zero

/-- The split that a stream reports last, zero for what it does not report. -/
def streamSplit (es : List Value) : Dialect → Split
  | .anthropic =>
    let count := fun key => (lastReport (countIn key) es).getD 0
    ⟨count "input_tokens", count "cache_creation_input_tokens", count "cache_read_input_tokens",
      count "output_tokens"⟩
  | .openai => lastUsage es .openai
  | .gemini => lastUsage es .gemini

def isStart (e : Value) : Bool := typeOf e = some "message_start"

def isDelta (e : Value) : Bool := typeOf e = some "message_delta"

/-- An event of a type that only Anthropic has. -/
def isAnthropic (e : Value) : Bool := isStart e || isDelta e || typeOf e = some "message_stop"

/-- An event of a dialect: it reports usage where the dialect does, or nowhere. -/
def Speaks (e : Value) : Dialect → Prop
  | .anthropic => isStart e ∨ isDelta e ∨ e.get "usage" = none ∧ e.get "usageMetadata" = none
  | .openai => isAnthropic e = false ∧ e.get "candidates" = none ∧ e.get "usageMetadata" = none ∧
      (usageIn e .openai = none → e.get "usage" = none ∨ e.get "usage" = some .null)
  | .gemini => isAnthropic e = false ∧ e.get "usage" = none ∧
      (usageIn e .gemini = none → e.pointer ["usageMetadata", "promptTokenCount"] = none)

/-- No event of a stream reports usage. -/
def Silent (es : List Value) : Dialect → Prop
  | .anthropic => ∀ e ∈ es, ¬ isStart e ∧ ¬ isDelta e
  | .openai => ∀ e ∈ es, usageIn e .openai = none
  | .gemini => ∀ e ∈ es, usageIn e .gemini = none

/-- What the tap makes of events: of Anthropic's it takes the input from `message_start` and
the output from `message_delta`. -/
def startUsage (e : Value) : Option Split :=
  if isStart e then
    some ⟨tokensAt e ["message", "usage", "input_tokens"],
      tokensAt e ["message", "usage", "cache_creation_input_tokens"],
      tokensAt e ["message", "usage", "cache_read_input_tokens"], 0⟩
  else none

def deltaOutput (e : Value) : Option Nat :=
  if isDelta e then tokensAt? e ["usage", "output_tokens"] else none

def tappedSplit (es : List Value) : Dialect → Split
  | .anthropic => { (lastReport startUsage es).getD .zero with
      outTokens := (lastReport deltaOutput es).getD 0 }
  | .openai => lastUsage es .openai
  | .gemini => lastUsage es .gemini

/-- The data of a line of an event stream: the space after the field name is optional. -/
def dataOf (line : Bytes) : Option Bytes :=
  (line.dropPrefix? (utf8 "data:")).map fun data =>
    let data := (data.dropPrefix? (utf8 " ")).getD data
    (data.dropSuffix? [carriageReturn]).getD data

section stream

variable (fromSlice : Bytes → Option Value)

def eventOf (data : Bytes) : Option Value := if data = doneMarker then none else fromSlice data

/-- The events of a stream, each on a line of its own. -/
def events (stream : Bytes) : List Value :=
  (lines lineFeed stream).filterMap fun line => (dataOf line).bind (eventOf fromSlice)

/-- The events on the lines that the tap reads. -/
def heard (stream : Bytes) : List Value :=
  ((lines lineFeed stream).filter (·.length ≤ sseLineBufCap)).filterMap fun line =>
    (sseData line).bind (eventOf fromSlice)

/-- An event stream of the reply whose split is `s`: what it reports last, if it reports
usage, is that split. -/
structure EventStream (dialect : Dialect) (s : Split) (stream : Bytes) : Prop where
  speaks : ∀ e ∈ events fromSlice stream, Speaks e dialect
  final : Silent (events fromSlice stream) dialect ∨
    streamSplit (events fromSlice stream) dialect = s

end stream

-- ---------------------------------------------------------------------------
-- The three decoders
-- ---------------------------------------------------------------------------

theorem usageIn_openai {v : Value} {s : Split} (h : usageIn v .openai = some s) :
    (v.pointer ["usage", "prompt_tokens"]).isSome ∧
      s = inclusiveSplit (tokensAt v ["usage", "prompt_tokens"])
        (tokensAt v ["usage", "prompt_tokens_details", "cached_tokens"])
        (tokensAt v ["usage", "completion_tokens"]) := by
  obtain ⟨prompt, hprompt, h⟩ := Option.bind_eq_some_iff.mp h
  obtain ⟨out, hout, rfl⟩ := Option.map_eq_some_iff.mp h
  obtain ⟨w, hw, _⟩ := Option.bind_eq_some_iff.mp hprompt
  simp [tokensAt, hprompt, hout, hw]

theorem usageIn_gemini {v : Value} {s : Split} (h : usageIn v .gemini = some s) :
    (v.pointer ["usageMetadata", "promptTokenCount"]).isSome ∧ s = geminiSplit v := by
  obtain ⟨prompt, hprompt, rfl⟩ := Option.map_eq_some_iff.mp h
  obtain ⟨w, hw, _⟩ := Option.bind_eq_some_iff.mp hprompt
  simp [hw]

theorem usageIn_anthropic {v : Value} {s : Split} (h : usageIn v .anthropic = some s) :
    s = ⟨tokensAt v ["usage", "input_tokens"],
      tokensAt v ["usage", "cache_creation_input_tokens"],
      tokensAt v ["usage", "cache_read_input_tokens"],
      tokensAt v ["usage", "output_tokens"]⟩ := by
  obtain ⟨input, hinput, h⟩ := Option.bind_eq_some_iff.mp h
  obtain ⟨out, hout, rfl⟩ := Option.map_eq_some_iff.mp h
  simp [tokensAt, hinput, hout]

/-- A reply that was passed through is read as its usage object stands. -/
theorem responseUsage_split {body : Body} {v : Value} {dialect : Dialect} {s : Split}
    (hjson : body.json = some v) (h : IsReply v dialect s) : (responseUsage body).split = s := by
  rw [responseUsage, hjson]
  cases dialect with
  | anthropic => simp [h.gemini, h.openai, usageIn_anthropic h.usage]
  | openai =>
    obtain ⟨hprompt, rfl⟩ := usageIn_openai h.usage
    simp [h.gemini, hprompt]
  | gemini =>
    obtain ⟨hprompt, rfl⟩ := usageIn_gemini h.usage
    simp [hprompt]

/-- What a reply must have for its provider to parse it. -/
def Parses (v : Value) : Dialect → Prop
  | .anthropic => ((v.get "content").bind Value.asArray).isSome
  | .openai => True
  | .gemini => ((v.pointer ["candidates", "0", "content", "parts"]).bind Value.asArray).isSome

/-- The provider of a dialect finds in a reply what its usage object says, and that adds up. -/
def Buffered (v : Value) : Dialect → Prop
  | .anthropic => True
  | .openai => tokensAt v ["usage", "prompt_tokens_details", "cached_tokens"] = 0
  | .gemini => tokensAt v ["usageMetadata", "cachedContentTokenCount"] ≤
      tokensAt v ["usageMetadata", "promptTokenCount"]

theorem complete_anthropic (v : Value) (model : String) (raw : Value) :
    (∃ resp, complete .anthropic model raw v = .ok resp ∧ responseSplit resp = s) ↔
      Parses v .anthropic ∧ s = ⟨tokensAt v ["usage", "input_tokens"],
        tokensAt v ["usage", "cache_creation_input_tokens"],
        tokensAt v ["usage", "cache_read_input_tokens"],
        tokensAt v ["usage", "output_tokens"]⟩ := by
  rw [complete, anthropicParseResponse, Parses]
  cases (v.get "content").bind Value.asArray with
  | none => simp [Except.map]
  | some blocks => simp [Except.map, responseSplit, eq_comm]

theorem complete_gemini (v : Value) (model : String) (raw : Value) :
    (∃ resp, complete .gemini model raw v = .ok resp ∧ responseSplit resp = s) ↔
      Parses v .gemini ∧ s = geminiSplit v := by
  rw [complete, geminiParseResponse, Parses]
  cases (v.pointer ["candidates", "0", "content", "parts"]).bind Value.asArray with
  | none => simp [Except.map]
  | some parts => simp [Except.map, responseSplit, geminiSplit, inclusiveSplit, eq_comm]

/-- A buffered reply is priced by the split of its usage object, and that adds up to what the
provider reports. -/
theorem complete_iff {v : Value} {dialect : Dialect} {s : Split} (h : IsReply v dialect s)
    (model : String) (raw : Value) :
    ((∃ resp, complete dialect model raw v = .ok resp ∧ responseSplit resp = s) ∧
        s.totalInput = reportedInput v dialect) ↔
      Parses v dialect ∧ Buffered v dialect := by
  cases dialect with
  | anthropic =>
    obtain rfl := usageIn_anthropic h.usage
    rw [complete_anthropic]
    simp [Buffered, reportedInput, Split.totalInput]
  | openai =>
    obtain ⟨-, rfl⟩ := usageIn_openai h.usage
    simp only [complete, Except.ok.injEq, exists_eq_left', responseSplit, inclusiveSplit,
      Split.mk.injEq, Split.totalInput, reportedInput, Parses, Buffered, true_and, and_true]
    omega
  | gemini =>
    obtain ⟨-, rfl⟩ := usageIn_gemini h.usage
    rw [complete_gemini]
    simp only [geminiSplit, inclusiveSplit, Split.totalInput, reportedInput, Buffered, and_true]
    refine and_congr_right fun _ => ?_
    omega

-- ---------------------------------------------------------------------------
-- The tap
-- ---------------------------------------------------------------------------

section tap

variable {e : Value} {usage : SseUsage}

@[simp] theorem split_completed : { usage with completed := true }.split = usage.split := rfl

@[simp] theorem split_named : (usage.named e).split = usage.split := rfl

@[simp] theorem split_stopped (reason : Option String) :
    (usage.stopped reason).split = usage.split := by
  cases reason <;> rfl

theorem split_messageDelta : (usage.messageDelta e).split =
    { usage.split with
      outTokens := (tokensAt? e ["usage", "output_tokens"]).getD usage.outTokens } := by
  rw [SseUsage.messageDelta, split_stopped]
  cases tokensAt? e ["usage", "output_tokens"] <;> rfl

theorem split_geminiChunk : (usage.geminiChunk e).split =
    if (e.pointer ["usageMetadata", "promptTokenCount"]).isSome then
      { geminiSplit e with cacheWriteTokens := usage.cacheWriteTokens }
    else usage.split := by
  have hstopped := @split_stopped usage
    (((e.pointer ["candidates", "0", "finishReason"]).bind Value.asStr).filter
      fun reason => reason ≠ "" && reason ≠ "FINISH_REASON_UNSPECIFIED")
  rw [SseUsage.geminiChunk]
  split_ifs
  · exact congrArg (fun s => { geminiSplit e with cacheWriteTokens := s.cacheWriteTokens }) hstopped
  · exact hstopped

theorem split_openaiChunk : (usage.openaiChunk e).split =
    { inTokens := ((tokensAt? e ["usage", "prompt_tokens"]).map fun prompt => prompt -
        tokensAt e ["usage", "prompt_tokens_details", "cached_tokens"]).getD usage.inTokens
      cacheWriteTokens := usage.cacheWriteTokens
      cacheReadTokens := ((tokensAt? e ["usage", "prompt_tokens"]).map fun _ =>
        tokensAt e ["usage", "prompt_tokens_details", "cached_tokens"]).getD usage.cacheReadTokens
      outTokens := (tokensAt? e ["usage", "completion_tokens"]).getD usage.outTokens } := by
  rw [SseUsage.openaiChunk, split_stopped]
  cases tokensAt? e ["usage", "prompt_tokens"] <;>
    cases tokensAt? e ["usage", "completion_tokens"] <;> rfl

theorem event_start (h : isStart e) : (usage.event e).split =
    { (startUsage e).getD .zero with outTokens := usage.outTokens } := by
  have htype : typeOf e = some "message_start" := of_decide_eq_true h
  rw [SseUsage.event, htype, startUsage, if_pos h]
  rfl

theorem event_delta (h : isDelta e) : (usage.event e).split =
    { usage.split with
      outTokens := (tokensAt? e ["usage", "output_tokens"]).getD usage.outTokens } := by
  have htype : typeOf e = some "message_delta" := of_decide_eq_true h
  rw [SseUsage.event, htype]
  exact split_messageDelta

theorem tokensAt?_null {key : String} (hkey : Json.parseIndex key = none) {v : Value}
    (h : v.get key = none ∨ v.get key = some .null) (k : String) (rest : List String) :
    tokensAt? v (key :: k :: rest) = none := by
  rw [tokensAt?, pointer_cons hkey]
  obtain h | h := h <;> simp [h, Value.pointer]

theorem event_untyped (h : isAnthropic e = false) : usage.event e =
    if isGemini e then (usage.named e).geminiChunk e
    else ((usage.named e).geminiChunk e).openaiChunk e := by
  simp only [isAnthropic, isStart, isDelta, Bool.or_eq_false_iff, decide_eq_false_iff_not] at h
  obtain ⟨⟨hstart, hdelta⟩, hstop⟩ := h
  rw [SseUsage.event]
  split
  · exact absurd ‹_› hstart
  · exact absurd ‹_› hdelta
  · exact absurd ‹_› hstop
  · rfl

theorem event_other (h : e.get "usage" = none) (hgemini : e.get "usageMetadata" = none)
    (hstart : isStart e = false) (hdelta : isDelta e = false) :
    (usage.event e).split = usage.split := by
  have hquiet : e.pointer ["usageMetadata", "promptTokenCount"] = none := by
    rw [pointer_cons (by decide), hgemini]
    rfl
  cases hstop : decide (typeOf e = some "message_stop") with
  | true =>
    have htype : typeOf e = some "message_stop" := of_decide_eq_true hstop
    rw [SseUsage.event, htype]
    rfl
  | false =>
    rw [event_untyped (by simp [isAnthropic, hstart, hdelta, hstop])]
    have hnone := tokensAt?_null (by decide) (.inl h)
    split_ifs
    · rw [split_geminiChunk, hquiet]
      rfl
    · rw [split_openaiChunk, hnone, hnone]
      exact (@split_geminiChunk e (usage.named e)).trans (by simp [hquiet])

/-- What an event of each dialect does to the counts. -/
theorem event_anthropic (h : Speaks e .anthropic) : (usage.event e).split =
    { (startUsage e).getD usage.split with
      outTokens := (deltaOutput e).getD usage.outTokens } := by
  cases hstart : isStart e with
  | true =>
    have hdelta : isDelta e = false := by
      rw [isDelta, of_decide_eq_true hstart]
      rfl
    rw [event_start hstart, startUsage, deltaOutput, if_pos hstart, hdelta]
    rfl
  | false =>
    cases hdelta : isDelta e with
    | true =>
      rw [event_delta hdelta, startUsage, deltaOutput, hstart, if_pos hdelta]
      rfl
    | false =>
      have hother : e.get "usage" = none ∧ e.get "usageMetadata" = none := by
        simpa [Speaks, hstart, hdelta] using h
      rw [event_other hother.1 hother.2 hstart hdelta, startUsage, deltaOutput, hstart, hdelta]
      rfl

theorem event_openai (h : Speaks e .openai) : (usage.event e).split =
    { (usageIn e .openai).getD usage.split with
      cacheWriteTokens := usage.cacheWriteTokens } := by
  obtain ⟨huntyped, hcandidates, hmetadata, hquiet⟩ := h
  have hgemini : e.pointer ["usageMetadata", "promptTokenCount"] = none := by
    rw [pointer_cons (by decide), hmetadata]
    rfl
  have hsame : ((usage.named e).geminiChunk e).split = usage.split := by
    simp [split_geminiChunk, hgemini]
  have hin := congrArg Split.inTokens hsame
  have hwrite := congrArg Split.cacheWriteTokens hsame
  have hread := congrArg Split.cacheReadTokens hsame
  have hout := congrArg Split.outTokens hsame
  simp only [SseUsage.split] at hin hwrite hread hout
  rw [event_untyped huntyped, if_neg (by simp [isGemini, hcandidates, hmetadata]),
    split_openaiChunk, hin, hwrite, hread, hout]
  cases husage : usageIn e .openai with
  | none =>
    have hnone := tokensAt?_null (by decide) (hquiet husage)
    rw [hnone, hnone]
    rfl
  | some s =>
    obtain ⟨prompt, hprompt, hbind⟩ := Option.bind_eq_some_iff.mp husage
    obtain ⟨out, hout, rfl⟩ := Option.map_eq_some_iff.mp hbind
    rw [hprompt, hout]
    rfl

theorem event_gemini (h : Speaks e .gemini) : (usage.event e).split =
    { (usageIn e .gemini).getD usage.split with
      cacheWriteTokens := usage.cacheWriteTokens } := by
  obtain ⟨huntyped, husage, hquiet⟩ := h
  have hnone := tokensAt?_null (by decide) (.inl husage)
  have hchunk : ((usage.named e).geminiChunk e).split =
      { (usageIn e .gemini).getD usage.split with
        cacheWriteTokens := usage.cacheWriteTokens } := by
    rw [split_geminiChunk]
    cases hin : usageIn e .gemini with
    | none =>
      rw [hquiet hin]
      rfl
    | some s =>
      obtain ⟨hsome, rfl⟩ := usageIn_gemini hin
      rw [if_pos hsome]
      rfl
  rw [event_untyped huntyped]
  split_ifs
  · exact hchunk
  · rw [split_openaiChunk, hnone, hnone]
    exact hchunk

end tap

section stream

variable {fromSlice : Bytes → Option Value} {chunks : List Bytes}

/-- However the stream is cut, the tap reads its lines up to the cap. -/
theorem sseUsage_lines (chunks : List Bytes) : sseUsage fromSlice chunks =
    ((lines lineFeed chunks.flatten).filter (·.length ≤ sseLineBufCap)).foldl
      (fun usage line => processSseLine fromSlice line usage) .fresh :=
  feed_lines chunks SseUsage.fresh

theorem processSseLine_event (line : Bytes) (usage : SseUsage) :
    processSseLine fromSlice line usage =
      match (sseData line).bind (eventOf fromSlice) with
      | some e => usage.event e
      | none =>
        if sseData line = some doneMarker then { usage with completed := true } else usage := by
  rw [processSseLine]
  cases sseData line with
  | none => rfl
  | some data =>
    by_cases hdone : data = doneMarker
    · simp [eventOf, hdone]
    · simp only [Option.bind_some, eventOf, if_neg hdone, Option.some.injEq]
      cases fromSlice data <;> rfl

/-- A register that the tap overwrites with what events report holds the last report of the
events it reads. -/
theorem tap_register (get : SseUsage → ρ) (report : Value → Option ρ) (chunks : List Bytes)
    (hdone : ∀ usage : SseUsage, get { usage with completed := true } = get usage)
    (hevent : ∀ e ∈ heard fromSlice chunks.flatten, ∀ usage : SseUsage,
      get (usage.event e) = (report e).getD (get usage)) :
    get (sseUsage fromSlice chunks) =
      (lastReport report (heard fromSlice chunks.flatten)).getD (get .fresh) := by
  have hlines : ∀ line ∈ (lines lineFeed chunks.flatten).filter (·.length ≤ sseLineBufCap),
      ∀ usage : SseUsage, get (processSseLine fromSlice line usage) =
        (((sseData line).bind (eventOf fromSlice)).bind report).getD (get usage) := by
    rintro line hline usage
    rw [processSseLine_event]
    cases hdata : (sseData line).bind (eventOf fromSlice) with
    | none =>
      dsimp only
      split_ifs
      · exact hdone usage
      · rfl
    | some e => exact hevent e (List.mem_filterMap.mpr ⟨line, hline, hdata⟩) usage
  have hfold := foldl_report (fun line => ((sseData line).bind (eventOf fromSlice)).bind report)
    hlines .fresh
  rw [sseUsage_lines, hfold, lastReport, lastReport, heard, List.filterMap_filterMap]

/-- In the dialects that overwrite the whole split, the tap holds the last usage object. -/
theorem tap_inclusive {dialect : Dialect} (chunks : List Bytes)
    (hevent : ∀ e ∈ heard fromSlice chunks.flatten, ∀ usage : SseUsage,
      (usage.event e).split = { (usageIn e dialect).getD usage.split with
        cacheWriteTokens := usage.cacheWriteTokens })
    (hwrite : ∀ e s, usageIn e dialect = some s → s.cacheWriteTokens = 0) :
    (sseUsage fromSlice chunks).split = lastUsage (heard fromSlice chunks.flatten) dialect := by
  have hsplit : { (sseUsage fromSlice chunks).split with cacheWriteTokens := 0 } =
      lastUsage (heard fromSlice chunks.flatten) dialect := by
    refine tap_register (fun usage => { usage.split with cacheWriteTokens := 0 }) _ chunks
      (fun _ => rfl) ?_
    rintro e he usage
    rw [hevent e he]
    cases husage : usageIn e dialect with
    | none => rfl
    | some s => simp [← hwrite e s husage]
  have hnone : (sseUsage fromSlice chunks).cacheWriteTokens = 0 := by
    have hkept := tap_register SseUsage.cacheWriteTokens (fun _ => none) chunks
      (fun _ => rfl) fun e he usage => congrArg Split.cacheWriteTokens (hevent e he usage)
    rw [hkept, lastReport_eq_none fun _ _ => rfl]
    rfl
  rw [← hsplit]
  exact congrArg (fun w => { (sseUsage fromSlice chunks).split with cacheWriteTokens := w }) hnone

/-- The tap holds what the events on the lines that it reads report to it. -/
theorem tap_split {dialect : Dialect} (chunks : List Bytes)
    (hspeaks : ∀ e ∈ heard fromSlice chunks.flatten, Speaks e dialect) :
    (sseUsage fromSlice chunks).split = tappedSplit (heard fromSlice chunks.flatten) dialect := by
  cases dialect with
  | anthropic =>
    have hevent := fun e he usage => @event_anthropic e usage (hspeaks e he)
    have hinput : { (sseUsage fromSlice chunks).split with outTokens := 0 } =
        (lastReport startUsage (heard fromSlice chunks.flatten)).getD .zero := by
      refine tap_register (fun usage => { usage.split with outTokens := 0 }) _ chunks
        (fun _ => rfl) ?_
      rintro e he usage
      rw [hevent e he]
      rw [startUsage]
      split_ifs <;> rfl
    have houtput : (sseUsage fromSlice chunks).outTokens =
        (lastReport deltaOutput (heard fromSlice chunks.flatten)).getD 0 :=
      tap_register SseUsage.outTokens _ chunks (fun _ => rfl) fun e he usage =>
        congrArg Split.outTokens (hevent e he usage)
    rw [tappedSplit, ← hinput, ← houtput]
    rfl
  | openai =>
    refine tap_inclusive chunks (fun e he usage => event_openai (hspeaks e he)) ?_
    rintro e s husage
    rw [(usageIn_openai husage).2]
    rfl
  | gemini =>
    refine tap_inclusive chunks (fun e he usage => event_gemini (hspeaks e he)) ?_
    rintro e s husage
    rw [(usageIn_gemini husage).2]
    rfl

theorem dataOf_sseData {line data : Bytes} (h : sseData line = some data) :
    dataOf line = some data := by
  obtain ⟨rest, hrest, hdata⟩ := Option.map_eq_some_iff.mp h
  obtain ⟨front, rfl, hfront⟩ := List.dropPrefix?_eq_some_iff.mp hrest
  obtain rfl := eq_of_beq hfront
  have hname : utf8 "data: " = utf8 "data:" ++ utf8 " " := by decide +kernel
  rw [dataOf, hname, List.append_assoc, List.dropPrefix?_append_of_beq _ (beq_self_eq_true _),
    Option.map_some, List.dropPrefix?_append_of_beq _ (beq_self_eq_true _), ← hdata]
  rfl

theorem events_of_heard {stream : Bytes} {e : Value} (h : e ∈ heard fromSlice stream) :
    e ∈ events fromSlice stream := by
  obtain ⟨line, hline, he⟩ := List.mem_filterMap.mp h
  obtain ⟨data, hdata, hevent⟩ := Option.bind_eq_some_iff.mp he
  refine List.mem_filterMap.mpr ⟨line, (List.mem_filter.mp hline).1, ?_⟩
  rw [dataOf_sseData hdata]
  exact hevent

theorem Silent.heard {stream : Bytes} {dialect : Dialect}
    (h : Silent (events fromSlice stream) dialect) : Silent (heard fromSlice stream) dialect := by
  cases dialect with
  | anthropic => exact fun e he => h e (events_of_heard he)
  | openai => exact fun e he => h e (events_of_heard he)
  | gemini => exact fun e he => h e (events_of_heard he)

theorem tappedSplit_silent {es : List Value} {dialect : Dialect} (h : Silent es dialect) :
    tappedSplit es dialect = .zero := by
  cases dialect with
  | anthropic =>
    have hstart : lastReport startUsage es = none :=
      lastReport_eq_none fun e he => if_neg (h e he).1
    have hdelta : lastReport deltaOutput es = none :=
      lastReport_eq_none fun e he => if_neg (h e he).2
    rw [tappedSplit, hstart, hdelta]
    rfl
  | openai => simp [tappedSplit, lastUsage, lastReport_eq_none h]
  | gemini => simp [tappedSplit, lastUsage, lastReport_eq_none h]

theorem streamSplit_silent {es : List Value} {dialect : Dialect} (h : Silent es dialect) :
    streamSplit es dialect = .zero := by
  cases dialect with
  | anthropic =>
    have hcount : ∀ key, lastReport (countIn key) es = none := by
      rintro key
      refine lastReport_eq_none fun e he => ?_
      obtain ⟨hstart, hdelta⟩ := h e he
      simp only [isStart, isDelta, decide_eq_true_eq] at hstart hdelta
      rw [countIn]
      split
      · exact absurd ‹_› hstart
      · exact absurd ‹_› hdelta
      · rfl
    simp [streamSplit, hcount, Split.zero]
  | openai => simp [streamSplit, lastUsage, lastReport_eq_none h]
  | gemini => simp [streamSplit, lastUsage, lastReport_eq_none h]

-- ---------------------------------------------------------------------------
-- When the three decoders agree
-- ---------------------------------------------------------------------------

variable (fromSlice)

/-- The three decoders find one split, and its input adds up to what the provider reports. -/
def Agree (dialect : Dialect) (model : String) (raw : Value) (body : Body) (v : Value)
    (chunks : List Bytes) : Prop :=
  ∃ resp, complete dialect model raw v = .ok resp ∧
    (responseUsage body).split = responseSplit resp ∧
    (sseUsage fromSlice chunks).split = responseSplit resp ∧
    (responseSplit resp).totalInput = reportedInput v dialect

/-- The reply can be parsed and its provider reads it as it stands; the stream reports its usage
unless all of it is zero; and what the tap takes from the lines that it reads is what the
stream reports last. -/
structure Accounted (dialect : Dialect) (v : Value) (s : Split) (stream : Bytes) : Prop where
  parses : Parses v dialect
  buffered : Buffered v dialect
  reported : Silent (events fromSlice stream) dialect → s = .zero
  heard : tappedSplit (heard fromSlice stream) dialect =
    streamSplit (events fromSlice stream) dialect

theorem token_accounting_iff (dialect : Dialect) (model : String) (raw : Value) (body : Body)
    (v : Value) (s : Split) (chunks : List Bytes) (hjson : body.json = some v)
    (hreply : IsReply v dialect s) (hstream : EventStream fromSlice dialect s chunks.flatten) :
    Agree fromSlice dialect model raw body v chunks ↔
      Accounted fromSlice dialect v s chunks.flatten := by
  have hpassed := responseUsage_split hjson hreply
  have htap := tap_split chunks fun e he => hstream.speaks e (events_of_heard he)
  have hbuffered := complete_iff hreply model raw
  constructor
  · rintro ⟨resp, hresp, hobserved, htapped, htotal⟩
    have hs : responseSplit resp = s := hobserved.symm.trans hpassed
    rw [hs] at htapped htotal
    obtain ⟨hparses, hbuffers⟩ := hbuffered.mp ⟨⟨resp, hresp, hs⟩, htotal⟩
    have hsplit := htap.symm.trans htapped
    refine ⟨hparses, hbuffers, fun hsilent => ?_, ?_⟩
    · rw [← hsplit, tappedSplit_silent hsilent.heard]
    · rcases hstream.final with hsilent | hfinal
      · rw [tappedSplit_silent hsilent.heard, streamSplit_silent hsilent]
      · rw [hsplit, hfinal]
  · rintro ⟨hparses, hbuffers, hreported, hheard⟩
    obtain ⟨⟨resp, hresp, hs⟩, htotal⟩ := hbuffered.mpr ⟨hparses, hbuffers⟩
    refine ⟨resp, hresp, hpassed.trans hs.symm, ?_, by rw [hs, htotal]⟩
    rw [hs, htap, hheard]
    rcases hstream.final with hsilent | hfinal
    · rw [streamSplit_silent hsilent, hreported hsilent]
    · exact hfinal

end stream

-- ---------------------------------------------------------------------------
-- A prompt with a cached part
-- ---------------------------------------------------------------------------

def sampleUsage (cached : Nat) : Value :=
  .object [("completion_tokens", .number (.posInt 5)), ("prompt_tokens", .number (.posInt 100)),
    ("prompt_tokens_details", .object [("cached_tokens", .number (.posInt cached))])]

def sampleReply (cached : Nat) : Value :=
  .object [("choices", .array [.object [("finish_reason", .string "stop"),
    ("message", .object [("content", .string "hi")])]]), ("usage", sampleUsage cached)]

def sampleEvent (cached : Nat) : Value :=
  .object [("choices", .array []), ("usage", sampleUsage cached)]

def sampleData (cached : Nat) : Bytes := utf8 (sampleEvent cached).toText

def sampleStream (cached : Nat) : List Bytes :=
  [utf8 "data: " ++ sampleData cached ++ [lineFeed]]

def sampleSlice (cached : Nat) (data : Bytes) : Option Value :=
  if data = sampleData cached then some (sampleEvent cached) else none

theorem sample_reply (cached : Nat) :
    IsReply (sampleReply cached) .openai (inclusiveSplit 100 cached 5) :=
  ⟨rfl, fun _ => rfl, fun h => by cases h⟩

/-- Data that stands on a line of its own as it is. -/
def plainData (data : Bytes) : Bool :=
  data.all (fun b => b ≠ lineFeed && b ≠ carriageReturn) && data ≠ doneMarker &&
    data.length < 1000

theorem sample_heard (cached : Nat) (hplain : plainData (sampleData cached)) :
    events (sampleSlice cached) (sampleStream cached).flatten = [sampleEvent cached] ∧
      heard (sampleSlice cached) (sampleStream cached).flatten = [sampleEvent cached] := by
  simp only [plainData, Bool.and_eq_true, decide_eq_true_eq, List.all_eq_true] at hplain
  obtain ⟨⟨hbytes, hdone⟩, hlength⟩ := hplain
  have hname : (utf8 "data: ").length = 6 ∧ lineFeed ∉ utf8 "data: " := by decide +kernel
  have hlines : lines lineFeed (sampleStream cached).flatten =
      [utf8 "data: " ++ sampleData cached] := by
    rw [sampleStream, List.flatten_singleton, lines_single]
    rw [List.mem_append]
    rintro (hmem | hmem)
    · exact hname.2 hmem
    · exact (hbytes _ hmem).1 rfl
  have hfits : (utf8 "data: " ++ sampleData cached).length ≤ sseLineBufCap := by
    rw [List.length_append, hname.1, sseLineBufCap]
    omega
  have hdata : sseData (utf8 "data: " ++ sampleData cached) = some (sampleData cached) := by
    rw [sseData, List.dropPrefix?_append_of_beq _ (beq_self_eq_true _), Option.map_some]
    cases hsuffix : (sampleData cached).dropSuffix? [carriageReturn] with
    | none => rfl
    | some front =>
      obtain ⟨suffix, heq, hreturn⟩ := List.dropSuffix?_eq_some_iff.mp hsuffix
      obtain rfl := eq_of_beq hreturn
      exact absurd rfl (hbytes carriageReturn (by simp [heq])).2
  have hevent : eventOf (sampleSlice cached) (sampleData cached) = some (sampleEvent cached) := by
    rw [eventOf, if_neg hdone, sampleSlice, if_pos rfl]
  constructor
  · rw [events, hlines]
    simp [dataOf_sseData hdata, hevent]
  · have hkept : ∀ line ∈ [utf8 "data: " ++ sampleData cached],
        decide (line.length ≤ sseLineBufCap) = true := by
      rintro line hline
      obtain rfl := List.mem_singleton.mp hline
      exact decide_eq_true hfits
    rw [heard, hlines, List.filter_eq_self.mpr hkept]
    simp [hdata, hevent]

theorem sample_stream {cached : Nat}
    (hevents : events (sampleSlice cached) (sampleStream cached).flatten = [sampleEvent cached]) :
    EventStream (sampleSlice cached) .openai (inclusiveSplit 100 cached 5)
      (sampleStream cached).flatten := by
  constructor
  · rw [hevents]
    rintro e he
    obtain rfl := List.mem_singleton.mp he
    exact ⟨rfl, rfl, rfl, fun h => by cases h⟩
  · rw [hevents]
    exact .inr rfl

/-- A cached part of the prompt is priced as uncached by the provider alone. -/
theorem cached_prompt_split :
    ¬ ∀ (fromSlice : Bytes → Option Value) (dialect : Dialect) (model : String) (raw : Value)
      (body : Body) (v : Value) (s : Split) (chunks : List Bytes),
      body.json = some v → IsReply v dialect s → EventStream fromSlice dialect s chunks.flatten →
        Agree fromSlice dialect model raw body v chunks := by
  intro h
  obtain ⟨hevents, -⟩ := sample_heard 60 (by decide +kernel)
  obtain ⟨resp, hresp, hobserved, -⟩ := h (sampleSlice 60) .openai "gpt" (sampleReply 60)
    (.ofValue (sampleReply 60)) (sampleReply 60) _ (sampleStream 60) rfl (sample_reply 60)
    (sample_stream hevents)
  cases hresp
  have hin := congrArg Split.inTokens hobserved
  change 40 = 100 at hin
  omega

theorem token_accounting_iff_uncached :
    Agree (sampleSlice 0) .openai "gpt" (sampleReply 0) (.ofValue (sampleReply 0)) (sampleReply 0)
      (sampleStream 0) := by
  obtain ⟨hevents, hheard⟩ := sample_heard 0 (by decide +kernel)
  refine (token_accounting_iff (sampleSlice 0) .openai "gpt" (sampleReply 0) _ _ _ _ rfl
    (sample_reply 0) (sample_stream hevents)).mpr ⟨trivial, rfl, ?_, ?_⟩
  · rw [hevents]
    intro hsilent
    cases hsilent (sampleEvent 0) (List.mem_singleton.mpr rfl)
  · rw [hevents, hheard]
    rfl

end Firstpass.TokenUsage
