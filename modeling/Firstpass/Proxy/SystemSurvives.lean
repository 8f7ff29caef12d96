import Firstpass.Proxy.WireReads

/-!
# The system prompt on every rung

The turns of a Messages body reach each rung, and its system text the rungs of the dialects
that read it where it is put.
-/

namespace Firstpass.WireBody

open Json
open ChatRequest (FromStr)
open Inbound (Body ProviderKind)
open PairedGrading (parseModelRequest)
open Responses (strAt)

-- ---------------------------------------------------------------------------
-- Every rung
-- ---------------------------------------------------------------------------

/-- A request as a rung is asked it, condensed or as it is. -/
def sent (base : ModelRequest) (cachePrefix : Bool) (model : String) :
    Option CondenseConfig → Option ModelRequest
  | none => some { base with cachePrefix, model }
  | some cfg =>
    (condense { base with cachePrefix } cfg.keepHead cfg.keepTail).map fun c =>
      { c.request with model }

/-- The turns that are kept, with the notice of those that are not. -/
def keptSayings (turns : List Value) : Option CondenseConfig → List Saying
  | none => turns.flatMap turnSayings
  | some cfg =>
    (turns.take cfg.keepHead).flatMap turnSayings ++
      (false, omittedNotice (turns.length - (cfg.keepHead + cfg.keepTail))) ::
        (turns.drop (turns.length - cfg.keepTail)).flatMap turnSayings

/-- The body of a rung says what the request says. -/
structure Survives (fromStr : FromStr) (json : Value) (turns : List Value)
    (cut : Option CondenseConfig) (kind : ProviderKind) (req : ModelRequest) : Prop where
  system : readSystem (wireBody fromStr req kind) kind = systemText json
  turns : readTurns (wireBody fromStr req kind) kind = keptSayings turns cut

/-- The dialect reads the system text where it is put: a body as it is puts it where Anthropic
reads it, a body that is built puts a string where the dialect does. -/
def Placed (json : Value) (cut : Option CondenseConfig) : ProviderKind → Prop
  | .openai => cut.isSome ∧ ¬ SystemInBlocks json
  | .gemini => ¬ SystemInBlocks json
  | _ => cut = none ∨ ¬ SystemInBlocks json

section survives

variable {json : Value} {turns : List Value} {base req : ModelRequest} {body : Body}

def turnMessage (m : Value) : ChatMessage :=
  ⟨(strAt "role" m).getD "user", (m.get "content").getD (.string "")⟩

theorem messageSayings_turnMessage {m : Value} (h : IsTurn m) :
    messageSayings (turnMessage m) = turnSayings m := by
  obtain ⟨content, hcontent, -⟩ := h.content
  rw [messageSayings, turnSayings, turnMessage, hcontent]
  rcases h.role with hrole | hrole <;> simp [hrole]

theorem isTextMessage_turnMessage {m : Value} (h : IsTurn m) : IsTextMessage (turnMessage m) := by
  obtain ⟨content, hcontent, htext⟩ := h.content
  constructor
  · rcases h.role with hrole | hrole <;> simp [turnMessage, hrole]
  · rw [turnMessage, hcontent]
    exact htext

/-- What is read off a body. -/
structure Parsed (json : Value) (turns : List Value) (base : ModelRequest) : Prop where
  raw : base.raw = json
  system : base.system = strAt "system" json
  messages : base.messages = turns.map turnMessage

theorem parsed_of_parse (hjson : body.json = some json) (htext : TextBody json turns)
    (hbase : parseModelRequest body = some base) : Parsed json turns base := by
  rw [parseModelRequest, hjson, Option.bind_some, htext.messages] at hbase
  cases hbase
  exact ⟨rfl, rfl, rfl⟩

theorem flatMap_turnMessage (h : ∀ m ∈ turns, IsTurn m) :
    (turns.map turnMessage).flatMap messageSayings = turns.flatMap turnSayings := by
  rw [List.flatMap_map]
  exact List.flatMap_congr fun m hm => messageSayings_turnMessage (h m hm)

/-- A string is the system text; an array of blocks is not read. -/
theorem strAt_system_iff (htext : TextBody json turns) :
    (strAt "system" json).getD "" = systemText json ↔
      ¬ SystemInBlocks json ∨ systemText json = "" := by
  rw [strAt, systemText, SystemInBlocks]
  cases hsystem : json.get "system" with
  | none => simp [contentTexts, String.join]
  | some v =>
    cases htext.system v hsystem with
    | string s => simp [Value.asStr, contentTexts]
    | blocks blocks h =>
      constructor
      · exact fun hempty => .inr hempty.symm
      · rintro (hnone | hempty)
        · exact absurd ⟨blocks, rfl⟩ hnone
        · exact hempty.symm

theorem notice_sayings (dropped : Nat) :
    messageSayings (ChatMessage.text "user" (omittedNotice dropped)) =
      [(false, omittedNotice dropped)] := by
  have hne : omittedNotice dropped ≠ "" := by
    intro h
    have hlength := congrArg String.length h
    simp [omittedNotice] at hlength
  simp [messageSayings, ChatMessage.text, contentTexts, sayings, hne]

/-- A condensed request has no raw body, and says what is kept. -/
theorem condensed_sayings {cfg : CondenseConfig} {cachePrefix : Bool} {c : Condensed}
    (hbase : Parsed json turns base) (htext : TextBody json turns)
    (hc : condense { base with cachePrefix } cfg.keepHead cfg.keepTail = some c) :
    (c.request.raw = .null ∧ c.request.system = strAt "system" json) ∧
      (∀ m ∈ c.request.messages, IsTextMessage m) ∧
      c.request.messages.flatMap messageSayings = keptSayings turns (some cfg) := by
  rw [condense] at hc
  split_ifs at hc
  cases hc
  have hlength : base.messages.length = turns.length := by
    rw [hbase.messages, List.length_map]
  have hturn : ∀ m ∈ turns.map turnMessage, IsTextMessage m := by
    rintro m hm
    obtain ⟨m', hm', rfl⟩ := List.mem_map.mp hm
    exact isTextMessage_turnMessage (htext.turn m' hm')
  refine ⟨⟨rfl, hbase.system⟩, ?_, ?_⟩
  · rintro m hm
    rw [hbase.messages] at hm
    rcases List.mem_append.mp hm with hm | hm
    · exact hturn m (List.mem_of_mem_take hm)
    · rcases List.mem_cons.mp hm with rfl | hm
      · exact ⟨.inl rfl, .string _⟩
      · exact hturn m (List.mem_of_mem_drop hm)
  · have htake : ∀ m ∈ turns.take cfg.keepHead, IsTurn m :=
      fun m hm => htext.turn m (List.mem_of_mem_take hm)
    have hdrop : ∀ m ∈ turns.drop (turns.length - cfg.keepTail), IsTurn m :=
      fun m hm => htext.turn m (List.mem_of_mem_drop hm)
    simp only [hlength]
    rw [hbase.messages, List.flatMap_append, List.flatMap_cons, ← List.map_take, ← List.map_drop,
      flatMap_turnMessage htake, flatMap_turnMessage hdrop, notice_sayings]
    rfl

theorem survives_iff_system {fromStr : FromStr} {cut : Option CondenseConfig} {kind : ProviderKind}
    {text : String} (hread : readSystem (wireBody fromStr req kind) kind = text ∧
      readTurns (wireBody fromStr req kind) kind = keptSayings turns cut) :
    Survives fromStr json turns cut kind req ↔ text = systemText json := by
  constructor
  · exact fun h => hread.1.symm.trans h.system
  · exact fun h => ⟨hread.1.trans h, hread.2⟩

/-- What is read of a body that is built. -/
theorem built_read (fromStr : FromStr) (kind : ProviderKind)
    (hraw : kind ≠ .gemini → ∀ fields, req.raw ≠ .object fields)
    (htexts : ∀ m ∈ req.messages, IsTextMessage m) :
    readSystem (wireBody fromStr req kind) kind = req.system.getD "" ∧
      readTurns (wireBody fromStr req kind) kind = req.messages.flatMap messageSayings := by
  cases kind with
  | anthropic => exact anthropic_built (hraw (by decide))
  | openai => exact openai_built (hraw (by decide)) htexts
  | gemini => exact gemini_built fromStr fun m hm => (htexts m hm).content
  | bedrock => exact host_built (hraw (by decide)) _ _ (.inl rfl)
  | vertex => exact host_built (hraw (by decide)) _ _ (.inr rfl)

/-- What is read of a body that is sent as it is. -/
theorem raw_read (fromStr : FromStr) {fields : Fields} (htext : TextBody (.object fields) turns)
    (hraw : req.raw = .object fields) (kind : ProviderKind) (hkind : kind ≠ .gemini) :
    readSystem (wireBody fromStr req kind) kind =
        (if kind = .openai then "" else systemText (.object fields)) ∧
      readTurns (wireBody fromStr req kind) kind = turns.flatMap turnSayings := by
  cases kind with
  | anthropic => exact anthropic_raw htext hraw
  | openai => exact openai_raw htext hraw
  | gemini => exact absurd rfl hkind
  | bedrock => exact host_raw htext hraw _ _ (.inl rfl)
  | vertex => exact host_raw htext hraw _ _ (.inr rfl)

theorem survives_built {fromStr : FromStr} {cut : Option CondenseConfig} {kind : ProviderKind}
    (htext : TextBody json turns) (hsystem : req.system = strAt "system" json)
    (hraw : kind ≠ .gemini → ∀ fields, req.raw ≠ .object fields)
    (htexts : ∀ m ∈ req.messages, IsTextMessage m)
    (hkept : req.messages.flatMap messageSayings = keptSayings turns cut) :
    Survives fromStr json turns cut kind req ↔ ¬ SystemInBlocks json ∨ systemText json = "" := by
  have hread := built_read fromStr kind hraw htexts
  rw [hsystem, hkept] at hread
  rw [survives_iff_system hread]
  exact strAt_system_iff htext

theorem TextBody.object (h : TextBody json turns) : ∃ fields, json = .object fields := by
  cases json with
  | object fields => exact ⟨fields, rfl⟩
  | _ => cases h.messages

/-- The turns reach every rung. The system text does exactly where the dialect reads it where
it is put, or where there is none. -/
theorem system_survives_iff (fromStr : FromStr) (body : Body) (json : Value) (turns : List Value)
    (base : ModelRequest) (hjson : body.json = some json) (htext : TextBody json turns)
    (hbase : parseModelRequest body = some base) (cachePrefix : Bool) (model : String)
    (cut : Option CondenseConfig) (req : ModelRequest)
    (hsent : sent base cachePrefix model cut = some req) (kind : ProviderKind) :
    Survives fromStr json turns cut kind req ↔ Placed json cut kind ∨ systemText json = "" := by
  have hparsed := parsed_of_parse hjson htext hbase
  cases cut with
  | none =>
    cases hsent
    obtain ⟨fields, rfl⟩ := htext.object
    have htexts : ∀ m ∈ base.messages, IsTextMessage m := by
      rw [hparsed.messages]
      rintro m hm
      obtain ⟨m', hm', rfl⟩ := List.mem_map.mp hm
      exact isTextMessage_turnMessage (htext.turn m' hm')
    let req : ModelRequest := { base with cachePrefix, model }
    have hraw : req.raw = .object fields := hparsed.raw
    have hread : ∀ kind : ProviderKind, kind ≠ .gemini →
        (Survives fromStr (.object fields) turns none kind req ↔
          (if kind = .openai then "" else systemText (.object fields)) =
            systemText (.object fields)) :=
      fun kind hkind => survives_iff_system (raw_read fromStr htext hraw kind hkind)
    cases kind with
    | openai =>
      refine (hread .openai (by decide)).trans ⟨fun h => .inr h.symm, ?_⟩
      rintro (⟨hcut, -⟩ | hempty)
      · cases hcut
      · exact hempty.symm
    | anthropic => simpa [Placed] using hread .anthropic (by decide)
    | bedrock => simpa [Placed] using hread .bedrock (by decide)
    | vertex => simpa [Placed] using hread .vertex (by decide)
    | gemini =>
      refine survives_built htext hparsed.system (fun h => absurd rfl h) htexts ?_
      show base.messages.flatMap messageSayings = _
      rw [hparsed.messages]
      exact flatMap_turnMessage htext.turn
  | some cfg =>
    obtain ⟨c, hc, rfl⟩ := Option.map_eq_some_iff.mp hsent
    obtain ⟨⟨hraw, hsystem⟩, htexts, hkept⟩ := condensed_sayings hparsed htext hc
    have hplaced : Placed json (some cfg) kind ↔ ¬ SystemInBlocks json := by
      cases kind <;> simp [Placed]
    rw [hplaced]
    refine survives_built htext hsystem (fun _ fields h => ?_) htexts hkept
    rw [show c.request.raw = .object fields from h] at hraw
    cases hraw

end survives

-- ---------------------------------------------------------------------------
-- One body
-- ---------------------------------------------------------------------------

def sampleTurn : Value := .object [("content", .string "Hello."), ("role", .string "user")]

def sampleBody : Value :=
  .object [("messages", .array [sampleTurn]), ("system", .string "Be brief.")]

theorem sampleBody_text : TextBody sampleBody [sampleTurn] where
  messages := rfl
  turn m hm := by
    obtain rfl := List.mem_singleton.mp hm
    exact ⟨.inl rfl, _, rfl, .string _⟩
  system v hv := by
    cases hv
    exact .string _

def sampleRequest : ModelRequest where
  model := ""
  system := some "Be brief."
  messages := [⟨"user", .string "Hello."⟩]
  maxTokens := 1024
  tools := .null
  raw := sampleBody
  cachePrefix := false

theorem system_survives_iff_gemini : Survives (fun _ => none) sampleBody [sampleTurn] none .gemini
    { sampleRequest with model := "gemini/flash" } :=
  (system_survives_iff (fun _ => none) (.ofValue sampleBody) sampleBody [sampleTurn] sampleRequest
    rfl sampleBody_text rfl false "gemini/flash" none _ rfl .gemini).mpr
    (.inl fun ⟨blocks, hblocks⟩ => by cases hblocks)

/-- An OpenAI rung is sent the system text where it does not read it. -/
theorem system_lost_on_openai :
    ¬ ∀ (fromStr : FromStr) (body : Body) (json : Value) (turns : List Value)
      (base : ModelRequest) (headers : Inbound.Headers) (telemetry : Inbound.Telemetry)
      (enforceStructured : Bool) (providers : Inbound.Registry) (ladder : List String),
      body.json = some json → TextBody json turns → parseModelRequest body = some base →
      Inbound.enforceCanHandle (Inbound.extractFeatures headers body telemetry) body
        enforceStructured ladder providers .anthropic = true →
      ∀ rung ∈ ladder, ∀ kind, providers (Inbound.providerId rung) = some kind →
        ∀ cachePrefix cut req, sent base cachePrefix rung cut = some req →
          Survives fromStr json turns cut kind req := by
  rintro h
  have hsurvives := h (fun _ => none) (.ofValue sampleBody) sampleBody [sampleTurn] sampleRequest
    (fun _ => none) ⟨0, 0⟩ true (fun _ => some .openai) ["openai/gpt"] rfl sampleBody_text rfl
    (by decide +kernel) "openai/gpt" List.mem_cons_self .openai rfl false none _ rfl
  have hread : readSystem (wireBody (fun _ => none) { sampleRequest with model := "openai/gpt" }
      .openai) .openai = "" := by decide +kernel
  have hempty := hread.symm.trans hsurvives.system
  revert hempty
  decide +kernel

end Firstpass.WireBody
