import Firstpass.Proxy.TenantAuth
import Firstpass.Proxy.WireBody

/-!
# Who is sent which credential

What a request brings of credentials is read by its dialect, and each provider of the registry
picks its own: the key that its operator configured, or else what is meant for it. A request
that is only relayed goes to the upstream of its dialect with the headers of a list.

Left out: values of headers that are not text, the reply, the clock of a signature, and the
pooled client.
-/

namespace Firstpass.Credentials

open Inbound (Dialect Headers ProviderKind)
open Routing (Bytes utf8)
open TenantAuth (AuthConfig Argon2 authMiddleware stripPrefix)
open WireBody (wireBody wireModel)
open ChatRequest (FromStr)

-- ---------------------------------------------------------------------------
-- What a request brings
-- ---------------------------------------------------------------------------

/-- `std::env::var` -/
abbrev Env := String → Option String

/-- The headers of a request, and all the values of the one that may be repeated. -/
structure Incoming where
  headers : Headers
  betas : List String
  first : headers "anthropic-beta" = betas.head?

def fromHeaders (env : Env) (h : Incoming) (dialect : Dialect) : Auth :=
  let bearer := (h.headers "authorization").bind (stripPrefix "Bearer ")
  { anthropicKey := (h.headers "x-api-key").filter fun _ => dialect ≠ .gemini
    openaiKey :=
      match dialect with
      | .anthropic => env "OPENAI_API_KEY"
      | .openai => bearer.orElse fun _ => env "OPENAI_API_KEY"
      | .gemini => env "OPENAI_API_KEY"
    anthropicBearer := if dialect = .anthropic then bearer else none
    anthropicBeta := if h.betas.isEmpty then none else some (", ".intercalate h.betas)
    anthropicVersion := ((h.headers "anthropic-version").map Inbound.trim).filter (· ≠ "")
    geminiKey := if dialect = .gemini then h.headers "x-goog-api-key" else none }

-- ---------------------------------------------------------------------------
-- What a provider picks
-- ---------------------------------------------------------------------------

/-- A configured key that is missing is an empty one, not the client's. -/
def resolveApiKey (env : Env) (apiKeyEnv byokOverride : Option String) : String :=
  match apiKeyEnv with
  | some name => ((env name).filter (· ≠ "")).getD ""
  | none => byokOverride.getD ""

inductive AnthropicCredential
  | apiKey (key : String)
  | bearer (token : String)

def nonEmpty (v : Option String) : Option String := v.filter (· ≠ "")

def anthropicCredential (configured : Option (Option String)) (auth : Auth)
    (ambient : Option String) : Option AnthropicCredential :=
  match configured with
  | some key => (nonEmpty key).map .apiKey
  | none =>
    ((nonEmpty auth.anthropicKey).map .apiKey).orElse fun _ =>
      ((nonEmpty auth.anthropicBearer).map .bearer).orElse fun _ =>
        (nonEmpty ambient).map .apiKey

def AnthropicCredential.header : AnthropicCredential → String × String
  | .apiKey key => ("x-api-key", key)
  | .bearer token => ("authorization", "Bearer " ++ token)

structure AwsEnvCredentials where
  accessKeyId : String
  secretAccessKey : String
  sessionToken : Option String

def AwsEnvCredentials.fromEnv (env : Env) : Except ProviderError AwsEnvCredentials :=
  match env "AWS_ACCESS_KEY_ID" with
  | none => .error (.transport "AWS_ACCESS_KEY_ID is not set")
  | some accessKeyId =>
    match env "AWS_SECRET_ACCESS_KEY" with
    | none => .error (.transport "AWS_SECRET_ACCESS_KEY is not set")
    | some secretAccessKey => .ok ⟨accessKeyId, secretAccessKey, env "AWS_SESSION_TOKEN"⟩

/-- The headers that sign a Bedrock call, of its URL, region and body, and the token of the
Google Cloud environment. -/
structure Cloud where
  signBedrock : String → String → Bytes → AwsEnvCredentials →
    Except ProviderError (List (String × String))
  gcpToken : Except ProviderError String

/-- The kinds of provider. -/
inductive Backend
  | anthropic (baseUrl : String) (apiKeyEnv : Option String)
  | openai (baseUrl : String) (apiKeyEnv : Option String)
  | gemini (baseUrl : String) (apiKeyEnv : Option String)
  | bedrock (region : Option String)
  | vertex (region project : Option String)
  deriving DecidableEq

/-- A request on its way out. -/
structure Sent where
  url : String
  headers : List (String × String)
  body : Bytes

def trimSlashes (base : String) : String :=
  String.ofList (base.toList.reverse.dropWhile (· = '/')).reverse

def bedrockUrl (region model : String) : String :=
  "https://bedrock-runtime." ++ region ++ ".amazonaws.com/model/" ++ model ++ "/invoke"

def vertexUrl (region project model : String) : String :=
  "https://" ++ region ++ "-aiplatform.googleapis.com/v1/projects/" ++ project ++ "/locations/" ++
    region ++ "/publishers/anthropic/models/" ++ model ++ ":rawPredict"

def contentJson : String × String := ("content-type", "application/json")

section
variable (cloud : Cloud) (fromStr : FromStr) (env : Env)

/-- What `complete` sends. -/
def Backend.complete (req : ModelRequest) (auth : Auth) : Backend → Except ProviderError Sent
  | .anthropic baseUrl apiKeyEnv =>
    let credential := anthropicCredential (apiKeyEnv.map env) auth (env "ANTHROPIC_API_KEY")
    .ok {
      url := trimSlashes baseUrl ++ "/v1/messages"
      headers := (credential.map AnthropicCredential.header).toList ++
        [("anthropic-version", auth.anthropicVersion.getD "2023-06-01")] ++
        (auth.anthropicBeta.map fun beta => ("anthropic-beta", beta)).toList ++ [contentJson]
      body := utf8 (wireBody fromStr req .anthropic).toText }
  | .openai baseUrl apiKeyEnv =>
    .ok {
      url := trimSlashes baseUrl ++ "/v1/chat/completions"
      headers := [("authorization", "Bearer " ++ resolveApiKey env apiKeyEnv auth.openaiKey),
        contentJson]
      body := utf8 (wireBody fromStr req .openai).toText }
  | .gemini baseUrl apiKeyEnv =>
    .ok {
      url := trimSlashes baseUrl ++ "/v1beta/models/" ++ wireModel req.model ++ ":generateContent"
      headers := [("x-goog-api-key", resolveApiKey env apiKeyEnv auth.geminiKey), contentJson]
      body := utf8 (wireBody fromStr req .gemini).toText }
  | .bedrock none => .error (.transport "bedrock provider requires a region")
  | .bedrock (some region) => do
    let url := bedrockUrl region (wireModel req.model)
    let body := utf8 (wireBody fromStr req .bedrock).toText
    let creds ← AwsEnvCredentials.fromEnv env
    let headers ← cloud.signBedrock url region body creds
    return { url, headers, body }
  | .vertex none _ => .error (.transport "vertex provider requires a region")
  | .vertex (some _) none => .error (.transport "vertex provider requires a project")
  | .vertex (some region) (some project) => do
    let token ← cloud.gcpToken
    return {
      url := vertexUrl region project (wireModel req.model)
      headers := [("authorization", "Bearer " ++ token), contentJson]
      body := utf8 (wireBody fromStr req .vertex).toText }

end

-- ---------------------------------------------------------------------------
-- The registry
-- ---------------------------------------------------------------------------

inductive AuthScheme
  | apiKey
  | awsSigv4
  | gcpOauth

structure ProviderDef where
  id : String
  dialect : Dialect
  baseUrl : String
  apiKeyEnv : Option String
  auth : AuthScheme
  region : Option String
  project : Option String

def builtinOpenaiCompatible : List (String × String × String) :=
  [("groq", "https://api.groq.com/openai", "GROQ_API_KEY"),
    ("deepseek", "https://api.deepseek.com", "DEEPSEEK_API_KEY"),
    ("together", "https://api.together.xyz", "TOGETHER_API_KEY"),
    ("fireworks", "https://api.fireworks.ai/inference", "FIREWORKS_API_KEY"),
    ("mistral", "https://api.mistral.ai", "MISTRAL_API_KEY"),
    ("openrouter", "https://openrouter.ai/api", "OPENROUTER_API_KEY"),
    ("xai", "https://api.x.ai", "XAI_API_KEY"),
    ("cerebras", "https://api.cerebras.ai", "CEREBRAS_API_KEY")]

def ProviderDef.provider (d : ProviderDef) : Backend :=
  match d.auth with
  | .awsSigv4 => .bedrock d.region
  | .gcpOauth => .vertex d.region d.project
  | .apiKey =>
    match d.dialect with
    | .anthropic => .anthropic d.baseUrl d.apiKeyEnv
    | .openai => .openai d.baseUrl d.apiKeyEnv
    | .gemini => .gemini d.baseUrl d.apiKeyEnv

/-- The providers as they are inserted. -/
def registered (defs : List ProviderDef) (anthropicBase openaiBase : String) :
    List (String × Backend) :=
  [("anthropic", .anthropic anthropicBase none), ("openai", .openai openaiBase none)] ++
    builtinOpenaiCompatible.map (fun (id, base, keyEnv) => (id, .openai base (some keyEnv))) ++
    defs.map fun d => (d.id, d.provider)

/-- The last one inserted under an id. -/
def registryGet (defs : List ProviderDef) (anthropicBase openaiBase id : String) :
    Option Backend :=
  (registered defs anthropicBase openaiBase).reverse.lookup id

-- ---------------------------------------------------------------------------
-- Requests that are relayed
-- ---------------------------------------------------------------------------

def forwardedRequestHeaders : Dialect → List String
  | .gemini => ["x-goog-api-key", "content-type"]
  | _ => ["x-api-key", "authorization", "anthropic-version", "anthropic-beta", "content-type"]

/-- Of a repeated header the first value is relayed. -/
def buildRequest (base path : String) (dialect : Dialect) (headers : Headers) (body : Bytes) :
    Sent where
  url := trimSlashes base ++ path
  headers := (forwardedRequestHeaders dialect).filterMap fun name =>
    (headers name).map fun value => (name, value)
  body := body

-- ---------------------------------------------------------------------------
-- Where a request goes
-- ---------------------------------------------------------------------------

structure Deployment where
  cloud : Cloud
  fromStr : FromStr
  defs : List ProviderDef
  upstreamAnthropic : String
  upstreamOpenai : String
  upstreamGemini : String

def Deployment.upstream (d : Deployment) : Dialect → String
  | .anthropic => d.upstreamAnthropic
  | .openai => d.upstreamOpenai
  | .gemini => d.upstreamGemini

def Deployment.provider (d : Deployment) (id : String) : Option Backend :=
  registryGet d.defs d.upstreamAnthropic d.upstreamOpenai id

/-- A rung of a ladder or the model of a gate, or the upstream that the request is relayed to. -/
inductive Destination
  | rung (id : String) (req : ModelRequest)
  | relay (path : String) (body : Bytes)

def sends (d : Deployment) (env : Env) (h : Incoming) (dialect : Dialect) :
    Destination → Option (Except ProviderError Sent)
  | .rung id req =>
    (d.provider id).map (·.complete d.cloud d.fromStr env req (fromHeaders env h dialect))
  | .relay path body =>
    some (.ok (buildRequest (d.upstream dialect) path dialect h.headers body))

/-- The headers of a request and the variables of the environment that a destination may get to
see. -/
structure Rights where
  headers : List String
  env : List String

/-- A provider with a key of its own sees no credential of a client. -/
def Backend.rights (dialect : Dialect) : Backend → Rights
  | .anthropic _ (some key) => ⟨["anthropic-version", "anthropic-beta"], [key]⟩
  | .anthropic _ none =>
    match dialect with
    | .anthropic =>
      ⟨["anthropic-version", "anthropic-beta", "x-api-key", "authorization"],
        ["ANTHROPIC_API_KEY"]⟩
    | .openai => ⟨["anthropic-version", "anthropic-beta", "x-api-key"], ["ANTHROPIC_API_KEY"]⟩
    | .gemini => ⟨["anthropic-version", "anthropic-beta"], ["ANTHROPIC_API_KEY"]⟩
  | .openai _ (some key) => ⟨[], [key]⟩
  | .openai _ none => ⟨if dialect = .openai then ["authorization"] else [], ["OPENAI_API_KEY"]⟩
  | .gemini _ (some key) => ⟨[], [key]⟩
  | .gemini _ none => ⟨if dialect = .gemini then ["x-goog-api-key"] else [], []⟩
  | .bedrock _ => ⟨[], ["AWS_ACCESS_KEY_ID", "AWS_SECRET_ACCESS_KEY", "AWS_SESSION_TOKEN"]⟩
  | .vertex _ _ => ⟨[], []⟩

def rights (d : Deployment) (dialect : Dialect) : Destination → Rights
  | .rung id _ => ((d.provider id).map (·.rights dialect)).getD ⟨[], []⟩
  | .relay _ _ => ⟨forwardedRequestHeaders dialect, []⟩

/-- Two requests, each in an environment, are the same for who has these rights. -/
structure Agree (r : Rights) (env env' : Env) (h h' : Incoming) : Prop where
  headers : ∀ name ∈ r.headers, h.headers name = h'.headers name
  betas : "anthropic-beta" ∈ r.headers → h.betas = h'.betas
  env : ∀ var ∈ r.env, env var = env' var

-- ---------------------------------------------------------------------------
-- Nothing beyond its rights
-- ---------------------------------------------------------------------------

section
variable {env env' : Env} {h h' : Incoming} {dialect : Dialect}

theorem resolveApiKey_own {name : String} (henv : env name = env' name)
    (byok byok' : Option String) :
    resolveApiKey env (some name) byok = resolveApiKey env' (some name) byok' := by
  rw [resolveApiKey, resolveApiKey, henv]

theorem anthropicVersion_eq (h₁ : h.headers "anthropic-version" = h'.headers "anthropic-version") :
    (fromHeaders env h dialect).anthropicVersion =
      (fromHeaders env' h' dialect).anthropicVersion := by
  simp only [fromHeaders, h₁]

theorem anthropicBeta_eq (h₁ : h.betas = h'.betas) :
    (fromHeaders env h dialect).anthropicBeta =
      (fromHeaders env' h' dialect).anthropicBeta := by
  simp only [fromHeaders, h₁]

theorem anthropicKey_eq (hkey : dialect ≠ .gemini → h.headers "x-api-key" = h'.headers "x-api-key") :
    (fromHeaders env h dialect).anthropicKey =
      (fromHeaders env' h' dialect).anthropicKey := by
  by_cases hd : dialect = .gemini
  · have hnone (v : Option String) : v.filter (fun _ => decide (dialect ≠ .gemini)) = none := by
      simp [hd]
    simp only [fromHeaders, hnone]
  · simp only [fromHeaders, hkey hd]

theorem anthropicBearer_eq
    (hbearer : dialect = .anthropic → h.headers "authorization" = h'.headers "authorization") :
    (fromHeaders env h dialect).anthropicBearer =
      (fromHeaders env' h' dialect).anthropicBearer := by
  by_cases hd : dialect = .anthropic
  · simp only [fromHeaders, hbearer hd]
  · simp only [fromHeaders, if_neg hd]

theorem openaiKey_eq (henv : env "OPENAI_API_KEY" = env' "OPENAI_API_KEY")
    (hbearer : dialect = .openai → h.headers "authorization" = h'.headers "authorization") :
    (fromHeaders env h dialect).openaiKey = (fromHeaders env' h' dialect).openaiKey := by
  cases dialect with
  | openai => simp only [fromHeaders, henv, hbearer rfl]
  | anthropic => exact henv
  | gemini => exact henv

theorem geminiKey_eq
    (hkey : dialect = .gemini → h.headers "x-goog-api-key" = h'.headers "x-goog-api-key") :
    (fromHeaders env h dialect).geminiKey = (fromHeaders env' h' dialect).geminiKey := by
  by_cases hd : dialect = .gemini
  · simp only [fromHeaders, hkey hd]
  · simp only [fromHeaders, if_neg hd]

theorem anthropicCredential_eq {baseUrl : String} {apiKeyEnv : Option String}
    (hagree : Agree ((Backend.anthropic baseUrl apiKeyEnv).rights dialect) env env' h h') :
    anthropicCredential (apiKeyEnv.map env) (fromHeaders env h dialect)
        (env "ANTHROPIC_API_KEY") =
      anthropicCredential (apiKeyEnv.map env') (fromHeaders env' h' dialect)
        ( env' "ANTHROPIC_API_KEY") := by
  cases apiKeyEnv with
  | some key =>
    have hown : env key = env' key := hagree.env key (by simp [Backend.rights])
    simp only [Option.map_some, anthropicCredential, hown]
  | none =>
    have hambient : env "ANTHROPIC_API_KEY" = env' "ANTHROPIC_API_KEY" :=
      hagree.env _ (by cases dialect <;> simp [Backend.rights])
    have hkey : (fromHeaders env h dialect).anthropicKey =
        (fromHeaders env' h' dialect).anthropicKey :=
      anthropicKey_eq fun hd =>
        hagree.headers _ (by cases dialect <;> simp_all [Backend.rights])
    have hbearer : (fromHeaders env h dialect).anthropicBearer =
        (fromHeaders env' h' dialect).anthropicBearer :=
      anthropicBearer_eq fun hd => hagree.headers _ (by simp [hd, Backend.rights])
    simp only [Option.map_none, anthropicCredential, hkey, hbearer, hambient]

/-- An Anthropic provider is sent the two headers of the protocol whatever its key is. -/
theorem mem_rights_anthropic (baseUrl : String) (apiKeyEnv : Option String) :
    "anthropic-version" ∈ ((Backend.anthropic baseUrl apiKeyEnv).rights dialect).headers ∧
      "anthropic-beta" ∈ ((Backend.anthropic baseUrl apiKeyEnv).rights dialect).headers := by
  cases apiKeyEnv with
  | some key => simp [Backend.rights]
  | none => cases dialect <;> simp [Backend.rights]

theorem complete_confined (cloud : Cloud) (fromStr : FromStr) (req : ModelRequest) {p : Backend}
    (hagree : Agree (p.rights dialect) env env' h h') :
    p.complete cloud fromStr env req (fromHeaders env h dialect) =
      p.complete cloud fromStr env' req (fromHeaders env' h' dialect) := by
  cases p with
  | anthropic baseUrl apiKeyEnv =>
    obtain ⟨hversion, hbeta⟩ := mem_rights_anthropic baseUrl apiKeyEnv
    rw [Backend.complete, Backend.complete, anthropicCredential_eq hagree,
      anthropicVersion_eq (hagree.headers _ hversion), anthropicBeta_eq (hagree.betas hbeta)]
  | openai baseUrl apiKeyEnv =>
    cases apiKeyEnv with
    | some key =>
      have hown : env key = env' key := hagree.env key (by simp [Backend.rights])
      rw [Backend.complete, Backend.complete, resolveApiKey_own hown]
    | none =>
      have hkey : (fromHeaders env h dialect).openaiKey =
          (fromHeaders env' h' dialect).openaiKey :=
        openaiKey_eq (hagree.env _ (by simp [Backend.rights])) fun hd =>
          hagree.headers _ (by simp [hd, Backend.rights])
      rw [Backend.complete, Backend.complete, hkey]
      rfl
  | gemini baseUrl apiKeyEnv =>
    cases apiKeyEnv with
    | some key =>
      have hown : env key = env' key := hagree.env key (by simp [Backend.rights])
      rw [Backend.complete, Backend.complete, resolveApiKey_own hown]
    | none =>
      have hkey : (fromHeaders env h dialect).geminiKey =
          (fromHeaders env' h' dialect).geminiKey :=
        geminiKey_eq fun hd => hagree.headers _ (by simp [hd, Backend.rights])
      rw [Backend.complete, Backend.complete, hkey]
      rfl
  | bedrock region =>
    have hcreds : AwsEnvCredentials.fromEnv env = AwsEnvCredentials.fromEnv env' := by
      have hid := hagree.env "AWS_ACCESS_KEY_ID" (by simp [Backend.rights])
      have hsecret := hagree.env "AWS_SECRET_ACCESS_KEY" (by simp [Backend.rights])
      have htoken := hagree.env "AWS_SESSION_TOKEN" (by simp [Backend.rights])
      rw [AwsEnvCredentials.fromEnv, AwsEnvCredentials.fromEnv, hid, hsecret, htoken]
    cases region with
    | none => rfl
    | some region => simp only [Backend.complete, hcreds]
  | vertex region project =>
    cases region with
    | none => rfl
    | some region => cases project <;> rfl

theorem relay_confined (base path : String) (body : Bytes)
    (hagree : ∀ name ∈ forwardedRequestHeaders dialect, h.headers name = h'.headers name) :
    buildRequest base path dialect h.headers body =
      buildRequest base path dialect h'.headers body := by
  rw [buildRequest, buildRequest]
  congr 1
  refine List.filterMap_congr fun name hname => ?_
  rw [hagree name hname]

theorem sends_agree (d : Deployment) {dest : Destination}
    (hagree : Agree (rights d dialect dest) env env' h h') :
    sends d env h dialect dest = sends d env' h' dialect dest := by
  cases dest with
  | relay path body =>
    rw [sends, sends, relay_confined _ path body hagree.headers]
  | rung id req =>
    rw [rights] at hagree
    rw [sends, sends]
    cases hp : d.provider id with
    | none => rfl
    | some p =>
      rw [hp] at hagree
      exact congrArg some (complete_confined d.cloud d.fromStr req hagree)

end

-- ---------------------------------------------------------------------------
-- The key of a tenant
-- ---------------------------------------------------------------------------

theorem beta_admitted {argon : Argon2} {c : AuthConfig} {headers : Headers}
    {a : TenantAuth.Admitted} (h : authMiddleware argon c headers = some a) :
    a.headers "anthropic-beta" = headers "anthropic-beta" := by
  rw [authMiddleware] at h
  split_ifs at h with hauth hfrom
  · cases h
    rfl
  · obtain ⟨tenant, -, rfl⟩ := Option.map_eq_some_iff.mp h
    rfl
  · obtain ⟨tenant, -, rfl⟩ := Option.map_eq_some_iff.mp h
    rfl

/-- The request that the middleware passes on. -/
def passOn (argon : Argon2) (c : AuthConfig) (h : Incoming) : Option Incoming :=
  match ha : authMiddleware argon c h.headers with
  | none => none
  | some a => some ⟨a.headers, h.betas, (beta_admitted ha).trans h.first⟩

theorem passOn_eq_some {argon : Argon2} {c : AuthConfig} {h a : Incoming}
    (hauth : c.requireAuth = true) (ha : passOn argon c h = some a) :
    a.betas = h.betas ∧ a.headers = if TenantAuth.keyCameFromBearerOnly h.headers then
      TenantAuth.remove "authorization" h.headers else h.headers := by
  rw [passOn] at ha
  split at ha
  · cases ha
  · next admitted hadmitted =>
    cases ha
    rw [authMiddleware] at hadmitted
    simp only [hauth, Bool.not_true, Bool.false_eq_true, if_false] at hadmitted
    obtain ⟨tenant, -, rfl⟩ := Option.map_eq_some_iff.mp hadmitted
    exact ⟨rfl, rfl⟩

theorem mem_rights {d : Deployment} {dialect : Dialect} {dest : Destination} :
    ∀ name ∈ (rights d dialect dest).headers, name ≠ "x-firstpass-key" := by
  cases dest with
  | relay path body => cases dialect <;> simp [rights, forwardedRequestHeaders]
  | rung id req =>
    rw [rights]
    cases d.provider id with
    | none => simp
    | some p =>
      cases p with
      | anthropic baseUrl apiKeyEnv =>
        cases apiKeyEnv <;> cases dialect <;> simp [Backend.rights]
      | openai baseUrl apiKeyEnv =>
        cases apiKeyEnv <;> cases dialect <;> simp [Backend.rights]
      | gemini baseUrl apiKeyEnv =>
        cases apiKeyEnv <;> cases dialect <;> simp [Backend.rights]
      | bedrock region => simp [Backend.rights]
      | vertex region project => simp [Backend.rights]

/-- Two requests that differ in nothing but the key of their tenant, which came the same way. -/
structure DifferInKey (h h' : Incoming) : Prop where
  betas : h.betas = h'.betas
  headers : ∀ name, name ≠ "x-firstpass-key" → name ≠ "authorization" →
    h.headers name = h'.headers name
  sameWay : TenantAuth.keyCameFromBearerOnly h.headers =
    TenantAuth.keyCameFromBearerOnly h'.headers
  authorization : TenantAuth.keyCameFromBearerOnly h.headers = false →
    h.headers "authorization" = h'.headers "authorization"

/-- Where authentication is on, nothing that is sent to a rung, to the model of a gate or to an
upstream depends on the key of the tenant. -/
theorem tenant_key_confined (argon : Argon2) {c : AuthConfig} (hauth : c.requireAuth = true)
    {h h' a a' : Incoming} (hkey : DifferInKey h h') (ha : passOn argon c h = some a)
    (ha' : passOn argon c h' = some a') (d : Deployment) (env : Env) (dialect : Dialect)
    (dest : Destination) : sends d env a dialect dest = sends d env a' dialect dest := by
  obtain ⟨hbetas, hheaders⟩ := passOn_eq_some hauth ha
  obtain ⟨hbetas', hheaders'⟩ := passOn_eq_some hauth ha'
  refine sends_agree d ⟨fun name hname => ?_, fun _ => ?_, fun _ _ => rfl⟩
  · have hown := mem_rights name hname
    rw [hheaders, hheaders', ← hkey.sameWay]
    by_cases hname : name = "authorization"
    · subst hname
      cases hfrom : TenantAuth.keyCameFromBearerOnly h.headers with
      | true => rfl
      | false => exact hkey.authorization hfrom
    · have hsame := hkey.headers name hown hname
      cases TenantAuth.keyCameFromBearerOnly h.headers with
      | true => simpa [TenantAuth.remove, hname] using hsame
      | false => exact hsame
  · rw [hbetas, hbetas', hkey.betas]

-- ---------------------------------------------------------------------------
-- Two keys of one deployment
-- ---------------------------------------------------------------------------

def sampleDeployment : Deployment where
  cloud := ⟨fun _ _ _ _ => .ok [], .error (.transport "no token")⟩
  fromStr := fun _ => none
  defs := []
  upstreamAnthropic := "https://api.anthropic.com"
  upstreamOpenai := "https://api.openai.com"
  upstreamGemini := "https://generativelanguage.googleapis.com"

def sampleIncoming (key : String) : Incoming where
  headers name :=
    if name = "x-firstpass-key" then some key
    else if name = "authorization" then some "Bearer sk-client" else none
  betas := []
  first := rfl

def sampleAuthConfig : AuthConfig where
  requireAuth := true
  tenantId := "default"
  tenantKeys := ⟨[("acme", "hash-of-a"), ("beta", "hash-of-b")]⟩

def sampleArgon : Argon2 where
  parses _ := true
  verifies hash secret := hash = "hash-of-" ++ secret

theorem tenant_key_confined_sample :
    ∃ a a', passOn sampleArgon sampleAuthConfig (sampleIncoming "acme.a") = some a ∧
      passOn sampleArgon sampleAuthConfig (sampleIncoming "beta.b") = some a' ∧
      sends sampleDeployment (fun _ => none) a .openai (.relay "/v1/models" []) =
        sends sampleDeployment (fun _ => none) a' .openai (.relay "/v1/models" []) := by
  have hadmitted (key : String)
      (hkey : (authMiddleware sampleArgon sampleAuthConfig (sampleIncoming key).headers).isSome) :
      ∃ a, passOn sampleArgon sampleAuthConfig (sampleIncoming key) = some a := by
    rw [passOn]
    split
    · next hnone => simp [hnone] at hkey
    · exact ⟨_, rfl⟩
  obtain ⟨a, ha⟩ := hadmitted "acme.a" (by decide +kernel)
  obtain ⟨a', ha'⟩ := hadmitted "beta.b" (by decide +kernel)
  have hkey : DifferInKey (sampleIncoming "acme.a") (sampleIncoming "beta.b") :=
    { betas := rfl
      headers := fun name hown _ => by simp [sampleIncoming, hown]
      sameWay := by decide +kernel
      authorization := fun _ => rfl }
  exact ⟨a, a', ha, ha', tenant_key_confined sampleArgon rfl hkey ha ha' sampleDeployment
    (fun _ => none) .openai (.relay "/v1/models" [])⟩

end Firstpass.Credentials
