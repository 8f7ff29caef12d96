import Firstpass.Proxy.ConfigParse
import Firstpass.Proxy.ResolveGates
import Firstpass.Proxy.Router

/-!
# Whether an accepted configuration runs as it is written

The checks see to the gates that a route names, and to the rungs of a challenger. The
providers of a route's own rungs and of its model gates are looked up only when a request
comes in.
-/

namespace Firstpass

variable {F : Type}

-- ---------------------------------------------------------------------------
-- The providers of a proxy
-- ---------------------------------------------------------------------------

namespace ProviderRegistry

def empty : ProviderRegistry := ⟨fun _ => none⟩

def insert (r : ProviderRegistry) (id : String) (p : Provider) : ProviderRegistry :=
  ⟨fun other => if other = id then some p else r.get other⟩

/-- The built-in providers, and then the declared ones, which may replace them. -/
def fromConfig (builtin declared : String → Provider) (defs : List String) : ProviderRegistry :=
  defs.foldl (fun r id => r.insert id (declared id)) <|
    (["anthropic", "openai"] ++ ConfigFile.builtinOpenaiCompatible).foldl
      (fun r id => r.insert id (builtin id)) empty

variable {r : ProviderRegistry} {build : String → Provider}

theorem isSome_get_insert (r : ProviderRegistry) (id other : String) (p : Provider) :
    ((r.insert id p).get other).isSome = true ↔ other = id ∨ (r.get other).isSome = true := by
  unfold insert
  dsimp only
  split_ifs with h <;> simp [h]

theorem isSome_get_inserts (ids : List String) (other : String) :
    ((ids.foldl (fun r id => r.insert id (build id)) r).get other).isSome = true ↔
      other ∈ ids ∨ (r.get other).isSome = true := by
  induction ids generalizing r with
  | nil => simp
  | cons id ids ih =>
    rw [List.foldl_cons, ih, isSome_get_insert, List.mem_cons]
    tauto

end ProviderRegistry

namespace ConfigFile

variable [F64 F]

/-- The provider is built in or declared. -/
def Config.knows (c : Config F) (provider : String) : Prop :=
  provider ∈ ["anthropic", "openai"] ++ builtinOpenaiCompatible ∨ provider ∈ c.providers

omit [F64 F] in
theorem isSome_get_fromConfig (c : Config F) (builtin declared : String → Provider)
    (provider : String) :
    ((ProviderRegistry.fromConfig builtin declared c.providers).get provider).isSome = true ↔
      c.knows provider := by
  unfold ProviderRegistry.fromConfig Config.knows
  rw [ProviderRegistry.isSome_get_inserts, ProviderRegistry.isSome_get_inserts]
  simp only [ProviderRegistry.empty, Option.isSome_none, Bool.false_eq_true, or_false]
  exact or_comm

-- ---------------------------------------------------------------------------
-- What the checks have established
-- ---------------------------------------------------------------------------

/-- What an accepted configuration is known to satisfy, as far as running it goes. -/
structure Accepted (c : Config F) : Prop where
  gates : ∀ route ∈ c.routes, ∀ g ∈ route.gates, c.definesGate g = true
  oneKind : ∀ d ∈ c.gateDefs, d.kindsSet = 1
  unique : (c.gateDefs.map GateDef.id).Nodup
  priced : ∀ route ∈ c.routes, ∀ rung ∈ route.ladder, (c.priceTable.get rung).isSome = true
  challengers : ∀ route ∈ c.routes, ∀ ch, route.challenger = some ch → ∀ rung ∈ ch.ladder,
    ∃ m, ModelRef.parse rung = .ok m ∧ c.knows m.provider

variable {std : StdLib F} {c : Config F} {d : GateDef F}

theorem GateDef.oneKind_of_validate (h : d.validate std = .ok ()) : d.kindsSet = 1 := by
  unfold GateDef.validate at h
  simp only [Checks.then_ok, Checks.require_ok] at h
  exact h.2.1

theorem gates_of_validateRoute {route : Route F} (h : c.validateRoute std i route = .ok ()) :
    ∀ g ∈ route.gates, c.definesGate g = true := by
  unfold Config.validateRoute at h
  rw [Checks.then_ok] at h
  rintro g hg
  obtain ⟨j, hj⟩ := Checks.each_mem h.1 g hg
  exact Checks.require_ok.mp hj

theorem known_of_validateChallengerRung (h : c.validateChallengerRung std i rung = .ok ()) :
    ∃ m, ModelRef.parse rung = .ok m ∧ c.knows m.provider := by
  unfold Config.validateChallengerRung at h
  dsimp only at h
  split at h
  · cases h
  · rename_i m hm
    rw [Checks.then_ok, Checks.require_ok] at h
    refine ⟨m, hm, ?_⟩
    simpa [Config.knows] using h.1

theorem Accepted.of_validate (h : c.validate std = .ok ()) : Accepted c := by
  unfold Config.validate at h
  simp only [Checks.then_ok] at h
  obtain ⟨hroutes, -, -, hdefs, -, hpriced, hchallengers, -⟩ := h
  obtain ⟨hdef, hunique, -⟩ := Checks.eachFresh_ok.mp hdefs
  refine ⟨fun route hroute => ?_, fun d hd => GateDef.oneKind_of_validate (hdef d hd), hunique,
    fun route hroute rung hrung => ?_, fun route hroute ch hch rung hrung => ?_⟩
  · obtain ⟨i, hi⟩ := Checks.each_mem hroutes route hroute
    exact gates_of_validateRoute hi
  · obtain ⟨i, hi⟩ := Checks.each_mem hpriced route hroute
    obtain ⟨j, hj⟩ := Checks.each_mem hi rung hrung
    exact Checks.require_ok.mp hj
  · obtain ⟨i, hi⟩ := Checks.each_mem hchallengers route hroute
    obtain ⟨j, hj⟩ := Checks.each_mem (Checks.onSome_ok.mp hi ch hch) rung hrung
    exact known_of_validateChallengerRung hj

theorem Accepted.of_parse {decode : String → Except String (Config F)} {text : String}
    (h : Config.parse std decode text = .ok c) : Accepted c := by
  unfold Config.parse at h
  obtain ⟨config, -, hrest⟩ := Checks.bind_ok.mp h
  obtain ⟨hvalid, hsame⟩ := Checks.then_ok.mp hrest
  cases hsame
  exact .of_validate hvalid

-- ---------------------------------------------------------------------------
-- What a request makes of the configuration
-- ---------------------------------------------------------------------------

/-- The model that a gate calls. -/
def GateDef.model (d : GateDef F) : Option String :=
  match d.judge with
  | some judge => some judge.model
  | none => d.consistency.map ConsistencyDef.model

variable {env : GateEnv F}

omit [F64 F] in
/-- A definition of one kind is built unless it calls a model of an unknown provider. -/
theorem isSome_build (hkind : d.kindsSet = 1)
    (hvar : ∀ dec, d.decision = some dec → (env.var dec.apiKeyEnv).isSome = true) :
    (env.build d).isSome = true ↔
      ∀ model, d.model = some model →
        (env.registry.get (Inbound.providerId model)).isSome = true := by
  obtain ⟨id, cmd, timeoutMs, judge, consistency, schema, decision, onAbstain⟩ := d
  cases judge with
  | some judge => simp [GateEnv.build, GateDef.model]
  | none =>
    cases consistency with
    | some cons => simp [GateEnv.build, GateDef.model]
    | none =>
      cases schema with
      | some schema => simp [GateEnv.build, GateDef.model]
      | none =>
        cases decision with
        | some dec =>
          have hkey := hvar dec rfl
          simp [GateEnv.build, GateDef.model, hkey]
        | none =>
          cases cmd with
          | nil => simp [GateDef.kindsSet] at hkind
          | cons program args => simp [GateEnv.build, GateDef.model]

/-- Every rung of an enforce ladder has its provider, and every gate of such a route is there
to be run. -/
structure RunsAsWritten (c : Config F) (env : GateEnv F) : Prop where
  rungs : ∀ route ∈ c.routes, route.mode = .enforce → ∀ rung ∈ route.ladder,
    ∃ m provider, ModelRef.parse rung = .ok m ∧ env.registry.get m.provider = some provider
  gates : ∀ route ∈ c.routes, route.mode = .enforce → ∀ name ∈ route.gates,
    (env.resolveGate name).isSome = true

/-- The rungs of an enforce ladder and the model gates of its route name providers that are
built in or declared. -/
structure NamesKnown (c : Config F) : Prop where
  rungs : ∀ route ∈ c.routes, route.mode = .enforce → ∀ rung ∈ route.ladder,
    ∃ m, ModelRef.parse rung = .ok m ∧ c.knows m.provider
  gates : ∀ route ∈ c.routes, route.mode = .enforce → ∀ name ∈ route.gates,
    name ∉ builtinGates → ∀ d ∈ c.gateDefs, d.id = name → ∀ model, d.model = some model →
      c.knows (Inbound.providerId model)

/-- The environment of a proxy that runs the configuration: the keys it names are set. -/
structure Serves (env : GateEnv F) (c : Config F) : Prop where
  defs : env.defs = c.gateDefs
  registry : ∃ builtin declared,
    env.registry = ProviderRegistry.fromConfig builtin declared c.providers
  keys : ∀ d ∈ c.gateDefs, ∀ dec, d.decision = some dec → (env.var dec.apiKeyEnv).isSome = true

omit [F64 F] in
theorem Serves.known (hs : Serves env c) (provider : String) :
    (env.registry.get provider).isSome = true ↔ c.knows provider := by
  obtain ⟨builtin, declared, hregistry⟩ := hs.registry
  rw [hregistry]
  exact isSome_get_fromConfig c builtin declared provider

omit [F64 F] in
theorem isSome_resolveGate_builtin (h : name ∈ builtinGates) :
    (env.resolveGate name).isSome = true := by
  simp only [builtinGates, List.mem_cons, List.not_mem_nil, or_false] at h
  rcases h with rfl | rfl | rfl <;> simp [GateEnv.resolveGate]

/-- Of the definitions of an id there is only one. -/
theorem Accepted.find (ha : Accepted c) (hd : d ∈ c.gateDefs) :
    (c.gateDefs.find? fun other => other.id = d.id) = some d := by
  obtain ⟨found, hfound⟩ : ∃ found, (c.gateDefs.find? fun other => other.id = d.id) = some found :=
    Option.isSome_iff_exists.mp (List.find?_isSome.mpr ⟨d, hd, by simp⟩)
  have hid : found.id = d.id := by simpa using List.find?_some hfound
  rw [hfound, List.inj_on_of_nodup_map ha.unique (List.mem_of_find?_eq_some hfound) hd hid]

/-- A gate that is not built in is there to be run if its model can be called. -/
theorem Accepted.isSome_resolveGate (ha : Accepted c) (hs : Serves env c) (hd : d ∈ c.gateDefs)
    (hbuiltin : d.id ∉ builtinGates) :
    (env.resolveGate d.id).isSome = true ↔
      ∀ model, d.model = some model → c.knows (Inbound.providerId model) := by
  rw [GateEnv.resolveGate_def hbuiltin, hs.defs, ha.find hd, Option.bind_some, Option.isSome_map,
    isSome_build (ha.oneKind d hd) (hs.keys d hd)]
  simp only [hs.known]

/-- The rungs of a challenger are held to this by the checks. -/
theorem Accepted.challenger_registered (ha : Accepted c) (hs : Serves env c) {route : Route F}
    (hroute : route ∈ c.routes) {ch : Challenger F} (hch : route.challenger = some ch) :
    ∀ rung ∈ ch.ladder, ∃ m provider, ModelRef.parse rung = .ok m ∧
      env.registry.get m.provider = some provider := by
  rintro rung hrung
  obtain ⟨m, hm, hknown⟩ := ha.challengers route hroute ch hch rung hrung
  obtain ⟨provider, hprovider⟩ := Option.isSome_iff_exists.mp ((hs.known _).mpr hknown)
  exact ⟨m, provider, hm, hprovider⟩

/-- What runs as it is written skips no rung and no gate. -/
theorem RunsAsWritten.skips_nothing (h : RunsAsWritten c env) {route : Route F}
    (hroute : route ∈ c.routes) (henforce : route.mode = .enforce) {ctx : EnforceCtx F}
    (hladder : ctx.ladder = route.ladder) (hproviders : ctx.providers = env.registry) :
    (∀ rung ∈ ctx.ladder, (resolveProvider ctx rung).isSome = true) ∧
      (env.resolveGates route.gates).map (·.spec.id) = route.gates := by
  constructor
  · rintro rung hrung
    obtain ⟨m, provider, hm, hprovider⟩ := h.rungs route hroute henforce rung (hladder ▸ hrung)
    simp [resolveProvider, hm, hproviders, hprovider]
  · have hall := h.gates route hroute henforce
    generalize route.gates = names at hall
    induction names with
    | nil => rfl
    | cons name names ih =>
      obtain ⟨hname, hnames⟩ := List.forall_mem_cons.mp hall
      obtain ⟨g, hg⟩ := Option.isSome_iff_exists.mp hname
      rw [GateEnv.resolveGates, List.filterMap_cons_some hg, List.map_cons,
        GateEnv.resolveGate_id hg, ← GateEnv.resolveGates, ih hnames]

/-- An accepted configuration runs as it is written exactly if it names known providers. -/
theorem accepted_runs_iff {decode : String → Except String (Config F)} {text : String}
    (h : Config.parse std decode text = .ok c) (hs : Serves env c) :
    RunsAsWritten c env ↔ NamesKnown c := by
  have ha := Accepted.of_parse h
  constructor
  · rintro ⟨hrungs, hgates⟩
    refine ⟨fun route hroute henforce rung hrung => ?_, ?_⟩
    · obtain ⟨m, provider, hm, hprovider⟩ := hrungs route hroute henforce rung hrung
      exact ⟨m, hm, (hs.known _).mp (Option.isSome_iff_exists.mpr ⟨provider, hprovider⟩)⟩
    · rintro route hroute henforce name hname hbuiltin d hd rfl
      exact (ha.isSome_resolveGate hs hd hbuiltin).mp (hgates route hroute henforce _ hname)
  · rintro ⟨hrungs, hmodels⟩
    refine ⟨fun route hroute henforce rung hrung => ?_, fun route hroute henforce name hname => ?_⟩
    · obtain ⟨m, hm, hknown⟩ := hrungs route hroute henforce rung hrung
      obtain ⟨provider, hprovider⟩ := Option.isSome_iff_exists.mp ((hs.known _).mpr hknown)
      exact ⟨m, provider, hm, hprovider⟩
    · by_cases hbuiltin : name ∈ builtinGates
      · exact isSome_resolveGate_builtin hbuiltin
      · -- the checks have seen to a definition, and it is of one kind
        have hdefines := ha.gates route hroute name hname
        simp only [Config.definesGate, Bool.or_eq_true, decide_eq_true_eq, hbuiltin, false_or,
          List.any_eq_true] at hdefines
        obtain ⟨d, hd, rfl⟩ := hdefines
        exact (ha.isSome_resolveGate hs hd hbuiltin).mpr
          (hmodels route hroute henforce _ hname hbuiltin d hd rfl)

-- ---------------------------------------------------------------------------
-- A rung with a price and no provider
-- ---------------------------------------------------------------------------

def ladderRoute (ladder : List String) : Route ℚ where
  match_ := Routing.Match.any
  mode := .enforce
  ladder := ladder
  gates := ["non-empty"]
  deferredGates := []
  routingMode := none
  rollout := none
  shadow := none
  challenger := none

def ladderConfig (ladder : List String) : Config ℚ where
  routes := [ladderRoute ladder]
  budget := ⟨none, none, none, .serveBestAttempt⟩
  escalation := .default
  guardrail := none
  gateDefs := []
  priceDefs := []
  providers := []

def sampleStd : StdLib ℚ where
  isFinite _ := true
  ln := id
  sqrt := id
  ceil := id
  display _ := ""
  fixed _ _ := ""
  debug s := s

def silentProvider (id : String) : Provider := ⟨id, fun _ _ _ => .error (.transport "")⟩

def ladderEnv (ladder : List String) : GateEnv ℚ where
  defs := []
  registry := .fromConfig silentProvider silentProvider []
  auth := ⟨none, none, none, none, none, none⟩
  prices := (ladderConfig ladder).priceTable
  var _ := none

theorem ladderEnv_serves (ladder : List String) :
    Serves (ladderEnv ladder) (ladderConfig ladder) where
  defs := rfl
  registry := ⟨silentProvider, silentProvider, rfl⟩
  keys := by simp [ladderConfig]

theorem parse_of_validate {decode : String → Except String (Config F)} {text : String}
    (hdecode : decode text = .ok c) (hvalid : c.validate std = .ok ()) :
    Config.parse std decode text = .ok c := by
  unfold Config.parse
  rw [hdecode]
  exact Checks.then_ok.mpr ⟨hvalid, rfl⟩

def ladderText (rung : String) : String :=
  "[[route]]\nmode = \"enforce\"\nladder = [\"" ++ rung ++ "\"]\ngates = [\"non-empty\"]"

/-- The rung is priced by default, and accepted, but no provider is there to call. -/
theorem accepted_rung_skipped :
    Config.parse sampleStd (fun _ => .ok (ladderConfig ["google/gemini-2.5-pro"]))
        (ladderText "google/gemini-2.5-pro") = .ok (ladderConfig ["google/gemini-2.5-pro"]) ∧
      ¬RunsAsWritten (ladderConfig ["google/gemini-2.5-pro"])
        (ladderEnv ["google/gemini-2.5-pro"]) := by
  constructor
  · exact parse_of_validate rfl (by decide +kernel)
  · rintro ⟨hrungs, -⟩
    obtain ⟨m, provider, hm, hprovider⟩ := hrungs _ List.mem_cons_self rfl _ List.mem_cons_self
    have hgoogle : ModelRef.parse "google/gemini-2.5-pro" = .ok ⟨"google", "gemini-2.5-pro"⟩ := by
      decide +kernel
    rw [hgoogle] at hm
    cases hm
    have hnone : ((ladderEnv ["google/gemini-2.5-pro"]).registry.get "google").isSome = false := by
      decide +kernel
    rw [hprovider] at hnone
    cases hnone

theorem accepted_runs_iff_sample :
    RunsAsWritten (ladderConfig ["openai/gpt-5.5"]) (ladderEnv ["openai/gpt-5.5"]) ↔
      NamesKnown (ladderConfig ["openai/gpt-5.5"]) := by
  have hparse : Config.parse sampleStd (fun _ => .ok (ladderConfig ["openai/gpt-5.5"]))
      (ladderText "openai/gpt-5.5") = .ok (ladderConfig ["openai/gpt-5.5"]) :=
    parse_of_validate rfl (by decide +kernel)
  exact accepted_runs_iff hparse (ladderEnv_serves _)

end ConfigFile

end Firstpass
