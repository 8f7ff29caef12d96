import Firstpass.Proxy.Gemini
import Firstpass.Proxy.Guard
import Firstpass.Proxy.Inbound

/-!
# Dispatch

The four inbound handlers, from a request to the observe passthrough or the escalation
ladder. Which of them honour a demotion and a rollout is decided here.
-/

namespace Firstpass.Dispatch

open Guard Inbound Routing

variable {F : Type} [F64 F]

/-- An endpoint, with the path segment that names the action of a Gemini request. -/
inductive Endpoint
  | messages
  | chatCompletions
  | responses
  | geminiGenerateContent (modelAction : String)

structure Request where
  headers : Headers
  body : Body
  tenant : String
  telemetry : Telemetry

structure ProxyConfig (F : Type) where
  routing : Option (Config F)
  defaultRoutingMode : RoutingMode
  promptSalt : String

/-- The state of the proxy that dispatch reads. -/
structure AppState (F : Type) where
  config : ProxyConfig F
  guardrails : GuardrailRegistry
  providers : Registry
  sha256 : Bytes → Bytes

def modeOfHeader (value : String) : Option RoutingMode :=
  let name := String.ofList ((trim value).toList.map Char.toLower)
  if name = "observe" then some .observe
  else if name = "cost" then some .cost
  else if name = "balanced" then some .balanced
  else if name = "quality" then some .quality
  else if name = "latency" then some .latency
  else if name = "max" then some .max
  else none

omit [F64 F] in
/-- The header, else the route, else the default. -/
def resolveMode (headers : Headers) (route : Route F) (config : ProxyConfig F) : RoutingMode :=
  (((headers "x-firstpass-mode").bind modeOfHeader).orElse fun _ => route.routingMode).getD
    config.defaultRoutingMode

/-- The enforce route of a request, with what its handler has derived by then. -/
structure Matched (F : Type) where
  route : Route F
  routeIx : Nat
  features : Features
  session : Option String
  routingMode : RoutingMode

inductive Served (F : Type)
  /-- Forwarded with no receipt. -/
  | relayed
  | passthrough (session : Option String) (shadowed : Bool)
  | enforced (m : Matched F)

def Served.isEnforced : Served F → Bool
  | .enforced _ => true
  | _ => false

namespace AppState

variable (s : AppState F)

def headerSession (req : Request) : Option String :=
  Inbound.headerSession s.sha256 req.headers s.config.promptSalt

def bodySession (body : Body) : Option String :=
  body.json.bind fun json => Inbound.bodySession s.sha256 json s.config.promptSalt

/-- The enforce route that claims the features, read off `body`. -/
def matchRoute (req : Request) (features : Features) (body : Body) : Option (Matched F) :=
  s.config.routing.bind fun routing =>
    ((routing.routeFor features).filter fun r => r.mode = .enforce ∧ r.ladder ≠ []).map fun route =>
      { route
        routeIx := routing.routeIx features
        features
        session := (s.headerSession req).orElse fun _ => s.bodySession body
        routingMode := resolveMode req.headers route s.config }

def enforceStructured : Bool := s.config.routing.any (·.enforceStructured)

def canHandle (m : Matched F) (body : Body) (inbound : Dialect) : Bool :=
  enforceCanHandleRoute m.features body s.enforceStructured m.route s.providers inbound

def isDemoted (req : Request) (m : Matched F) (now : Int) : Bool :=
  s.guardrails.isDemoted (req.tenant, m.routeIx) now

/-- The identity that a rollout holds constant. -/
def rolloutKeyValue (req : Request) (m : Matched F) : RolloutKey → String
  | .session => m.session.getD (requestIdentity s.sha256 req.body.bytes)
  | .request => requestIdentity s.sha256 req.body.bytes
  | .tenant => req.tenant

/-- Whether a rollout keeps the request out of enforcement. -/
def inControlArm (req : Request) (m : Matched F) : Bool :=
  m.route.rollout.any fun rollout =>
    !(rollout.decide s.sha256 s.config.promptSalt (s.rolloutKeyValue req m rollout.key)).enforced

-- ---------------------------------------------------------------------------
-- The handlers
-- ---------------------------------------------------------------------------

def messages (req : Request) (now : Int) : Served F :=
  match s.matchRoute req (extractFeatures req.headers req.body req.telemetry) req.body with
  | none => .passthrough (s.headerSession req) false
  | some m =>
    if m.routingMode = .observe then .passthrough m.session false
    else if s.isDemoted req m now then .passthrough m.session false
    else if s.inControlArm req m then .passthrough m.session m.route.shadowed
    else if s.canHandle m req.body .anthropic then .enforced m
    else .passthrough m.session false

def chatCompletions (req : Request) : Served F :=
  match s.matchRoute req (extractOpenaiFeatures req.headers req.body req.telemetry) req.body with
  | none => .passthrough (s.headerSession req) false
  | some m =>
    if m.routingMode = .observe then .passthrough m.session false
    else if s.canHandle m req.body .openai then .enforced m
    else .passthrough m.session false

/-- The Chat request a Responses one is translated to, where it is. -/
def responsesChat (req : Request) : Option Body :=
  (req.body.json.filter fun json => !Responses.hasUntranslatableContent json).map fun json =>
    .ofValue (Responses.requestToChat json)

def responses (req : Request) : Served F :=
  match responsesChat req with
  | none => .passthrough (s.headerSession req) false
  | some chat =>
    match s.matchRoute req (extractOpenaiFeatures req.headers chat req.telemetry) req.body with
    | none => .passthrough (s.headerSession req) false
    | some m =>
      if m.routingMode ≠ .observe ∧ s.canHandle m chat .openai then .enforced m
      else .passthrough m.session false

/-- The model and the action of a path, split at the last colon. -/
def splitAction (modelAction : String) : String × String :=
  let reversed := modelAction.toList.reverse
  match reversed.dropWhile (· ≠ ':') with
  | [] => (modelAction, "")
  | _ :: model =>
    (String.ofList model.reverse, String.ofList (reversed.takeWhile (· ≠ ':')).reverse)

/-- The Chat request a Gemini one is translated to, where it is. -/
def geminiChat (req : Request) (model : String) : Option Body :=
  (req.body.json.filter fun json => !Gemini.hasUntranslatableContent json).map fun json =>
    .ofValue (Gemini.requestToChat json model)

def geminiGenerateContent (modelAction : String) (req : Request) (now : Int) : Served F :=
  let (model, action) := splitAction modelAction
  if action ≠ "generateContent" ∧ action ≠ "streamGenerateContent" then .relayed
  else
    match geminiChat req model with
    | none => .passthrough (s.headerSession req) false
    | some chat =>
      match s.matchRoute req (extractOpenaiFeatures req.headers chat req.telemetry) chat with
      | none => .passthrough (s.headerSession req) false
      | some m =>
        if m.routingMode = .observe then .passthrough m.session false
        else if s.isDemoted req m now then .passthrough m.session false
        else if s.inControlArm req m then .passthrough m.session false
        else if s.canHandle m chat .openai then .enforced m
        else .passthrough m.session false

def handle (endpoint : Endpoint) (req : Request) (now : Int) : Served F :=
  match endpoint with
  | .messages => s.messages req now
  | .chatCompletions => s.chatCompletions req
  | .responses => s.responses req
  | .geminiGenerateContent modelAction => s.geminiGenerateContent modelAction req now

-- ---------------------------------------------------------------------------
-- What every handler derives
-- ---------------------------------------------------------------------------

/-- The body an endpoint gates, and the body it reads the session from. -/
def gatedBody (endpoint : Endpoint) (req : Request) : Option (Body × Body) :=
  match endpoint with
  | .messages | .chatCompletions => some (req.body, req.body)
  | .responses => (responsesChat req).map (·, req.body)
  | .geminiGenerateContent modelAction =>
    let (model, action) := splitAction modelAction
    if action ≠ "generateContent" ∧ action ≠ "streamGenerateContent" then none
    else (geminiChat req model).map fun chat => (chat, chat)

def features (endpoint : Endpoint) (req : Request) (body : Body) : Features :=
  match endpoint with
  | .messages => extractFeatures req.headers body req.telemetry
  | _ => extractOpenaiFeatures req.headers body req.telemetry

def inbound : Endpoint → Dialect
  | .messages => .anthropic
  | _ => .openai

/-- The matched enforce route of a request, with the body that is gated. -/
def enforceRoute (endpoint : Endpoint) (req : Request) : Option (Matched F × Body) :=
  (gatedBody endpoint req).bind fun (body, sessionBody) =>
    (s.matchRoute req (features endpoint req body) sessionBody).map (·, body)

/-- A demotion or a rollout keeps the matched route from enforcing. -/
def Withheld (req : Request) (m : Matched F) (now : Int) : Prop :=
  s.isDemoted req m now ∨ s.inControlArm req m

end AppState

/-- The endpoints whose handlers read the guardrail and the rollout. -/
def Endpoint.guarded : Endpoint → Bool
  | .messages | .geminiGenerateContent _ => true
  | .chatCompletions | .responses => false

-- ---------------------------------------------------------------------------
-- One dispatch
-- ---------------------------------------------------------------------------

def Served.IsPassthrough (served : Served F) : Prop :=
  ∃ session shadowed, served = .passthrough session shadowed

/-- What a handler does with the enforce route it found. -/
inductive Dispatched (s : AppState F) (endpoint : Endpoint) (req : Request) (now : Int)
    (m : Matched F) (body : Body) : Served F → Prop
  | enforced (hmode : m.routingMode ≠ .observe)
      (hguard : endpoint.guarded → ¬ s.Withheld req m now)
      (hcarry : s.canHandle m body (AppState.inbound endpoint)) :
      Dispatched s endpoint req now m body (.enforced m)
  | observed (shadowed : Bool)
      (hwhy : m.routingMode = .observe ∨ (endpoint.guarded ∧ s.Withheld req m now) ∨
        ¬ s.canHandle m body (AppState.inbound endpoint)) :
      Dispatched s endpoint req now m body (.passthrough m.session shadowed)

variable {s : AppState F} {endpoint : Endpoint} {req : Request} {now : Int} {m : Matched F}
  {body : Body}

/-- The tests of the two guarded handlers, in their order. -/
theorem guarded_dispatched (shadowed : Bool) (hguarded : endpoint.guarded) :
    Dispatched s endpoint req now m body
      (if m.routingMode = .observe then .passthrough m.session false
        else if s.isDemoted req m now then .passthrough m.session false
        else if s.inControlArm req m then .passthrough m.session shadowed
        else if s.canHandle m body (AppState.inbound endpoint) then .enforced m
        else .passthrough m.session false) := by
  split_ifs with hmode hdemoted harm hcarry
  · exact .observed false (.inl hmode)
  · exact .observed false (.inr (.inl ⟨hguarded, .inl hdemoted⟩))
  · exact .observed shadowed (.inr (.inl ⟨hguarded, .inr harm⟩))
  · exact .enforced hmode (fun _ hheld => hheld.elim hdemoted harm) hcarry
  · exact .observed false (.inr (.inr hcarry))

theorem handle_dispatched (h : s.enforceRoute endpoint req = some (m, body)) :
    Dispatched s endpoint req now m body (s.handle endpoint req now) := by
  obtain ⟨⟨gated, sessionBody⟩, hgated, hmatch⟩ := Option.bind_eq_some_iff.mp h
  obtain ⟨m', hm, heq⟩ := Option.map_eq_some_iff.mp hmatch
  cases heq
  cases endpoint with
  | messages =>
    cases hgated
    have hm : s.matchRoute req (extractFeatures req.headers req.body req.telemetry) req.body =
        some m := hm
    simp only [AppState.handle, AppState.messages, hm]
    exact guarded_dispatched m.route.shadowed rfl
  | chatCompletions =>
    cases hgated
    have hm : s.matchRoute req (extractOpenaiFeatures req.headers req.body req.telemetry)
        req.body = some m := hm
    simp only [AppState.handle, AppState.chatCompletions, hm]
    split_ifs with hmode hcarry
    · exact .observed false (.inl hmode)
    · exact .enforced hmode nofun hcarry
    · exact .observed false (.inr (.inr hcarry))
  | responses =>
    obtain ⟨chat, hchat, heq⟩ := Option.map_eq_some_iff.mp hgated
    cases heq
    have hm : s.matchRoute req (extractOpenaiFeatures req.headers body req.telemetry)
        req.body = some m := hm
    simp only [AppState.handle, AppState.responses, hchat, hm]
    split_ifs with hboth
    · exact .enforced hboth.1 nofun hboth.2
    · by_cases hmode : m.routingMode = .observe
      · exact .observed false (.inl hmode)
      · exact .observed false (.inr (.inr fun hcarry => hboth ⟨hmode, hcarry⟩))
  | geminiGenerateContent modelAction =>
    simp only [AppState.gatedBody] at hgated
    split_ifs at hgated with haction
    obtain ⟨chat, hchat, heq⟩ := Option.map_eq_some_iff.mp hgated
    cases heq
    have hm : s.matchRoute req (extractOpenaiFeatures req.headers body req.telemetry) body =
        some m := hm
    simp only [AppState.handle, AppState.geminiGenerateContent, if_neg haction, hchat, hm]
    exact guarded_dispatched false rfl

theorem handle_enforced (h : s.enforceRoute endpoint req = some (m, body)) :
    (s.handle endpoint req now).IsPassthrough ↔
      m.routingMode = .observe ∨ (endpoint.guarded ∧ s.Withheld req m now) ∨
        ¬ s.canHandle m body (AppState.inbound endpoint) := by
  have hdispatched : Dispatched s endpoint req now m body (s.handle endpoint req now) :=
    handle_dispatched h
  constructor
  · rintro ⟨session, shadowed, hserved⟩
    rw [hserved] at hdispatched
    cases hdispatched with
    | observed shadowed hwhy => exact hwhy
  · intro hwhy
    cases hserved : s.handle endpoint req now with
    | relayed => rw [hserved] at hdispatched; cases hdispatched
    | passthrough session shadowed => exact ⟨session, shadowed, rfl⟩
    | enforced m' =>
      rw [hserved] at hdispatched
      cases hdispatched with
      | enforced hmode hguard hcarry =>
        rcases hwhy with hobserve | ⟨hguarded, hheld⟩ | hcannot
        · exact absurd hobserve hmode
        · exact absurd hheld (hguard hguarded)
        · exact absurd hcarry hcannot

/-- A withheld route is passed through exactly on a guarded endpoint, and where the request
would not have reached the ladder anyway. -/
theorem withheld_passthrough_iff (s : AppState F) (endpoint : Endpoint) (req : Request)
    (now : Int) :
    (∀ m body, s.enforceRoute endpoint req = some (m, body) → s.Withheld req m now →
        (s.handle endpoint req now).IsPassthrough) ↔
      ∀ m body, s.enforceRoute endpoint req = some (m, body) → s.Withheld req m now →
        endpoint.guarded ∨ m.routingMode = .observe ∨
          ¬ s.canHandle m body (AppState.inbound endpoint) := by
  refine forall_congr' fun m => forall_congr' fun body => ?_
  refine imp_congr_right fun hroute => imp_congr_right fun hheld => ?_
  rw [handle_enforced hroute]
  constructor
  · rintro (hmode | ⟨hguarded, -⟩ | hcannot)
    · exact .inr (.inl hmode)
    · exact .inl hguarded
    · exact .inr (.inr hcannot)
  · rintro (hguarded | hmode | hcannot)
    · exact .inr (.inl ⟨hguarded, hheld⟩)
    · exact .inl hmode
    · exact .inr (.inr hcannot)

/-- A route that takes everything, rolled out to nobody. -/
def sampleRoute : Route ℚ where
  match_ := .any
  mode := .enforce
  ladder := ["anthropic/small"]
  routingMode := none
  rollout := some ⟨0, .tenant⟩
  shadowed := false
  challengerLadder := none

def sampleState : AppState ℚ where
  config := ⟨some ⟨[sampleRoute], true⟩, .balanced, "salt"⟩
  guardrails := ⟨fun _ => some ⟨[], some 100⟩⟩
  providers := fun _ => some .anthropic
  sha256 := fun bytes => bytes ++ List.replicate 32 0

def sampleRequest : Request where
  headers := fun _ => none
  body := .ofValue (.object [("messages", .array [])])
  tenant := "t"
  telemetry := ⟨0, 0⟩

def sampleMatched : Matched ℚ where
  route := sampleRoute
  routeIx := 0
  features := extractOpenaiFeatures sampleRequest.headers sampleRequest.body ⟨0, 0⟩
  session := none
  routingMode := .balanced

/-- A demoted route runs its ladder on the Chat endpoint. -/
theorem demoted_chat_enforced :
    ¬ ∀ m body, sampleState.enforceRoute .chatCompletions sampleRequest = some (m, body) →
        sampleState.Withheld sampleRequest m 50 →
        (sampleState.handle .chatCompletions sampleRequest 50).IsPassthrough := by
  intro h
  have hroute : sampleState.enforceRoute .chatCompletions sampleRequest =
      some (sampleMatched, sampleRequest.body) := rfl
  have hserved : sampleState.handle .chatCompletions sampleRequest 50 = .enforced sampleMatched :=
    rfl
  obtain ⟨session, shadowed, hpass⟩ := h _ _ hroute (.inl (by decide))
  rw [hserved] at hpass
  cases hpass

end Firstpass.Dispatch
