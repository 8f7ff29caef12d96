import Firstpass.Proxy.Affinity
import Firstpass.Proxy.CacheHits
import Firstpass.Proxy.ConversationId
import Firstpass.Proxy.TenantAuth

/-!
# Which keys collide

A cache key is a tenant, a prompt hash and a ladder, a promotion key a tenant and a session, with
bars in between that nothing escapes. The hash is the one part that never has a bar.
-/

namespace Firstpass.KeysApart

open Affinity (promotionKey)
open ConfigFile
open Inbound (Headers Body promptHash trim head_trim nonBlank isWhitespace capChars capSession
  sessionOf hashedSession headerSession bodySession)
open ResponseCache (armLadder composeKey)
open Routing (Bytes)
open TenantAuth

variable {F : Type}

-- ---------------------------------------------------------------------------
-- What a deployment can make a key of
-- ---------------------------------------------------------------------------

/-- A request as it can come in, and the id of its session where it names none. -/
structure Arrival where
  headers : Headers
  body : Body
  fresh : String
  legible : Legible headers
  uuid : fresh.toList.length = 36 ∧ ∀ c ∈ fresh.toList, c.isAlphanum || c = '-'

structure Deployment (F : Type) where
  auth : AuthConfig
  promptSalt : String
  routing : Config F

/-- A text that a session can begin with, a bar and more of the session after it. -/
def Opens (u : String) : Prop :=
  (∀ c ∈ u.toList.head?, isWhitespace c = false) ∧ u.toList.length ≤ 254

section
variable (argon : Argon2) (sha256 : Bytes → Bytes) (d : Deployment F)

def Arrival.session (salt : String) (a : Arrival) : String :=
  ((headerSession sha256 a.headers salt).orElse fun _ =>
    a.body.json.bind fun json => bodySession sha256 json salt).getD a.fresh

namespace Deployment

def tenants : Set String :=
  {tenant | ∃ a : Arrival, ∃ admitted, authMiddleware argon d.auth a.headers = some admitted ∧
    admitted.tenant = tenant}

def hashes : Set String := Set.range (promptHash sha256 d.promptSalt)

def sessions : Set String := Set.range (Arrival.session sha256 d.promptSalt)

/-- The ladders of the enforce routes that claim some request, on either arm. -/
def ladders : Set (List String) :=
  {ladder | ∃ features route onChallenger, d.routing.routeFor features = some route ∧
    route.mode = .enforce ∧ route.ladder ≠ [] ∧ armLadder route onChallenger = ladder}

structure Apart : Prop where
  cache : ∀ t ∈ d.tenants argon, ∀ t' ∈ d.tenants argon, ∀ h ∈ d.hashes sha256,
    ∀ h' ∈ d.hashes sha256, ∀ l ∈ d.ladders, ∀ l' ∈ d.ladders,
    composeKey t h l = composeKey t' h' l' → t = t' ∧ h = h' ∧ l = l'
  promotion : ∀ t ∈ d.tenants argon, ∀ t' ∈ d.tenants argon, ∀ s ∈ d.sessions sha256,
    ∀ s' ∈ d.sessions sha256, promotionKey t s = promotionKey t' s' → t = t' ∧ s = s'

/-- No id of a tenant goes on where another ends, with a bar and then a text that can also begin
a session, or a prompt hash and more of a ladder that reads like one after another key; and no
two ladders read the same. -/
structure Unmixed : Prop where
  sessions : ∀ t u, t ∈ d.tenants argon → t ++ "|" ++ u ∈ d.tenants argon → ¬ Opens u
  ladders : (d.tenants argon).Nonempty → ∀ l ∈ d.ladders, ∀ l' ∈ d.ladders,
    ">".intercalate l = ">".intercalate l' → l = l'
  hashes : ∀ t w, t ∈ d.tenants argon → ∀ h ∈ d.hashes sha256,
    t ++ "|" ++ (h ++ w) ∈ d.tenants argon → ∀ h' ∈ d.hashes sha256, ∀ l ∈ d.ladders,
    ∀ l' ∈ d.ladders, "|" ++ ">".intercalate l ≠ w ++ "|" ++ h' ++ "|" ++ ">".intercalate l'

end Deployment
end

-- ---------------------------------------------------------------------------
-- The sessions
-- ---------------------------------------------------------------------------

variable {argon : Argon2} {sha256 : Bytes → Bytes} {d : Deployment F} {salt : String}

theorem append_bar_eq {s x s' x' : String} (h : s ++ "|" ++ x = s' ++ "|" ++ x') :
    (s = s' ∧ x = x') ∨ (∃ u, s' = s ++ "|" ++ u ∧ x = u ++ "|" ++ x') ∨
      ∃ u, s = s' ++ "|" ++ u ∧ x' = u ++ "|" ++ x := by
  have hlist : s.toList ++ '|' :: x.toList = s'.toList ++ '|' :: x'.toList := by
    simpa using congrArg String.toList h
  rcases Separator.append_cons_eq_iff.mp hlist with ⟨hs, hx⟩ | ⟨mid, hs, hx⟩ | ⟨mid, hs, hx⟩
  · exact .inl ⟨String.toList_inj.mp hs, String.toList_inj.mp hx⟩
  · refine .inr (.inl ⟨String.ofList mid, ?_, ?_⟩) <;>
      rw [← String.toList_inj] <;> simp [hs, hx]
  · refine .inr (.inr ⟨String.ofList mid, ?_, ?_⟩) <;>
      rw [← String.toList_inj] <;> simp [hs, hx]

theorem bodySession_kind {json : Json.Value} {id : String}
    (h : bodySession sha256 json salt = some id) :
    ∃ kind ∈ ["meta", "prev", "pck", "conv"], ∃ text, sessionOf sha256 kind salt text = some id := by
  simp only [bodySession] at h
  split at h
  · exact ⟨"meta", by simp, _, h⟩
  · split at h
    · obtain ⟨raw, -, hraw⟩ := Option.bind_eq_some_iff.mp h
      exact ⟨"prev", by simp, _, hraw⟩
    · split at h
      · exact ⟨"pck", by simp, _, h⟩
      · obtain ⟨opening, -, hopening⟩ := Option.bind_eq_some_iff.mp h
        exact ⟨"conv", by simp, _, hopening⟩

/-- A hashed id is not empty and has no bar. -/
theorem bar_notMem_sessionOf {kind : String} {text : Bytes} {id : String}
    (hkind : '|' ∉ kind.toList) (h : sessionOf sha256 kind salt text = some id) :
    '|' ∉ id.toList ∧ id.toList ≠ [] := by
  rw [Inbound.sessionOf_eq_some h]
  have hdigest : '|' ∉ (promptHash sha256 salt text).toList.take 16 := fun hmem =>
    ResponseCache.bar_notMem_hexEncode _ (List.mem_of_mem_take hmem)
  simp [hkind, hdigest]

theorem capChars_eq_take {room : Nat} {cs : List Char} (h : ∀ c ∈ cs, isVisible c) :
    capChars room cs = cs.take room := by
  induction cs generalizing room with
  | nil => simp [capChars]
  | cons c cs ih =>
    rw [List.forall_mem_cons] at h
    cases room with
    | zero => simp [capChars, utf8Size_of_visible h.1]
    | succ room => simp [capChars, utf8Size_of_visible h.1, ih h.2]

theorem capSession_toList {s : String} (h : Visible s) :
    (capSession s).toList = s.toList.take 256 := by
  simp [capSession, capChars_eq_take h]

/-- The session is what the caller named, or it has no bar. -/
theorem session_cases {s : String} (hs : s ∈ d.sessions sha256) :
    ('|' ∉ s.toList ∧ s.toList ≠ []) ∨
      ∃ raw, Visible (trim raw) ∧ trim raw ≠ "" ∧ s = capSession (trim raw) := by
  obtain ⟨a, rfl⟩ := hs
  unfold Arrival.session
  cases hheader : headerSession sha256 a.headers d.promptSalt with
  | none =>
    refine .inl ?_
    cases hbody : a.body.json.bind fun json => bodySession sha256 json d.promptSalt with
    | none =>
      obtain ⟨hlength, hchars⟩ := a.uuid
      refine ⟨fun hbar => absurd (hchars _ hbar) (by decide), fun hnil => ?_⟩
      simp only [Option.orElse_none, Option.getD_none] at hnil
      simp [hnil] at hlength
    | some id =>
      obtain ⟨json, -, hjson⟩ := Option.bind_eq_some_iff.mp hbody
      obtain ⟨kind, hkind, text, hid⟩ := bodySession_kind hjson
      refine bar_notMem_sessionOf ?_ hid
      fin_cases hkind <;> decide
  | some id =>
    unfold headerSession at hheader
    cases hnamed : nonBlank (a.headers "x-firstpass-session") with
    | none =>
      simp only [hnamed] at hheader
      obtain ⟨raw, -, hraw⟩ := Option.bind_eq_some_iff.mp hheader
      exact .inl (bar_notMem_sessionOf (by decide) hraw)
    | some named =>
      simp only [hnamed, Option.some.injEq] at hheader
      have hvisible := visible_nonBlank (a.legible _) hnamed
      obtain ⟨hne, raw, -, rfl⟩ := nonBlank_eq_some hnamed
      exact .inr ⟨raw, hvisible, hne, hheader.symm⟩

theorem session_ne_nil {s : String} (hs : s ∈ d.sessions sha256) : s.toList ≠ [] := by
  rcases session_cases hs with ⟨-, hne⟩ | ⟨raw, hvisible, hne, rfl⟩
  · exact hne
  · rw [capSession_toList hvisible]
    simpa using hne

theorem session_of_bar {s : String} (hs : s ∈ d.sessions sha256) (hbar : '|' ∈ s.toList) :
    (∀ c ∈ s.toList.head?, isWhitespace c = false) ∧ s.toList.length ≤ 256 := by
  rcases session_cases hs with ⟨hno, -⟩ | ⟨raw, hvisible, -, rfl⟩
  · exact absurd hbar hno
  · rw [capSession_toList hvisible]
    refine ⟨fun c hc => head_trim raw c ?_, List.length_take_le _ _⟩
    rwa [List.head?_take, if_neg (by decide)] at hc

/-- A legible text that begins with no blank is a session, with one letter after it. -/
theorem mem_sessions {p : String} (hvisible : Visible p)
    (hhead : ∀ c ∈ p.toList.head?, isWhitespace c = false) (hlen : p.toList.length ≤ 255) :
    p ++ "x" ∈ d.sessions sha256 := by
  have hvis : Visible (p ++ "x") := by
    intro c hc
    simp only [String.toList_append, List.mem_append] at hc
    rcases hc with hc | hc
    · exact hvisible c hc
    · simp at hc
      subst hc
      decide
  have htrim : trim (p ++ "x") = p ++ "x" := by
    have hfront : (p.toList ++ ['x']).dropWhile isWhitespace = p.toList ++ ['x'] := by
      cases hp : p.toList with
      | nil => decide
      | cons c cs => exact List.dropWhile_cons_of_neg (by simp [hhead c (by simp [hp])])
    have hback : ('x' :: p.toList.reverse).dropWhile isWhitespace = 'x' :: p.toList.reverse :=
      List.dropWhile_cons_of_neg (by decide)
    rw [← String.toList_inj]
    simp [trim, hfront, hback]
  have hcap : capSession (p ++ "x") = p ++ "x" := by
    rw [← String.toList_inj, capSession_toList hvis]
    refine List.take_of_length_le ?_
    rw [String.toList_append, List.length_append]
    exact Nat.succ_le_succ hlen
  refine ⟨{
    headers := fun name => if name = "x-firstpass-session" then some (p ++ "x") else none
    body := ⟨[], none⟩
    fresh := "00000000-0000-0000-0000-000000000000"
    legible := ?_
    uuid := by simp }, ?_⟩
  · rintro name v hv
    simp only [Option.mem_def, Option.ite_none_right_eq_some, Option.some.injEq] at hv
    exact hv.2 ▸ hvis
  · simp [Arrival.session, headerSession, nonBlank, htrim, hcap, Option.filter]

-- ---------------------------------------------------------------------------
-- The keys
-- ---------------------------------------------------------------------------

/-- Past the hash, what goes on the id of a tenant has to be read off a ladder. -/
theorem hash_then {h x u x' : String} (hh : '|' ∉ h.toList)
    (heq : h ++ "|" ++ x = u ++ "|" ++ x') : ∃ w, u = h ++ w ∧ "|" ++ x = w ++ "|" ++ x' := by
  rcases append_bar_eq heq with ⟨rfl, rfl⟩ | ⟨mid, rfl, rfl⟩ | ⟨mid, rfl, -⟩
  · exact ⟨"", by simp, by simp⟩
  · exact ⟨"|" ++ mid, by simp [String.append_assoc], by simp [String.append_assoc]⟩
  · simp at hh

theorem bar_notMem_hashes {h : String} (hh : h ∈ d.hashes sha256) : '|' ∉ h.toList := by
  obtain ⟨body, rfl⟩ := hh
  exact ResponseCache.bar_notMem_hexEncode _

theorem opens_of_session {u s : String} (hbar : u ++ "|" ++ s ∈ d.sessions sha256)
    (hs : s ∈ d.sessions sha256) : Opens u := by
  obtain ⟨hhead, hlen⟩ := session_of_bar hbar (by simp)
  have hpos : 0 < s.toList.length := List.length_pos_of_ne_nil (session_ne_nil hs)
  simp only [String.toList_append, List.length_append, String.reduceToList, List.length_cons,
    List.length_nil] at hlen
  refine ⟨fun c hc => hhead c ?_, by omega⟩
  rw [String.toList_append, String.toList_append, List.append_assoc, List.head?_append, hc]
  rfl

/-- What goes on the id of another tenant is legible, as only keys tell two tenants apart. -/
theorem visible_of_tenants {t u : String} (ht : t ∈ d.tenants argon)
    (htu : t ++ "|" ++ u ∈ d.tenants argon) : Visible u := by
  obtain ⟨a, admitted, hadmitted, htenant⟩ := htu
  cases hauth : d.auth.requireAuth with
  | true =>
    have hvisible := visible_tenant hauth a.legible hadmitted
    rw [htenant] at hvisible
    refine hvisible.within ?_
    simpa using (List.suffix_append (t.toList ++ ['|']) u.toList).isInfix
  | false =>
    obtain ⟨b, admitted', hadmitted', rfl⟩ := ht
    simp only [authMiddleware, hauth, Bool.not_false, if_true, Option.some.injEq]
      at hadmitted hadmitted'
    subst hadmitted hadmitted'
    have hlen := congrArg (fun s : String => s.toList.length) htenant
    simp at hlen

theorem Opens.mem_sessions {u : String} (h : Opens u) (hvisible : Visible u) :
    u ++ "|" ++ "x" ∈ d.sessions sha256 := by
  obtain ⟨hhead, hlen⟩ := h
  have hroom : (u ++ "|").toList.length ≤ 255 := by
    rw [String.toList_append, List.length_append]
    exact Nat.succ_le_succ hlen
  refine KeysApart.mem_sessions (fun c hc => ?_) (fun c hc => ?_) hroom
  · simp only [String.toList_append, List.mem_append] at hc
    rcases hc with hc | hc
    · exact hvisible c hc
    · obtain rfl : c = '|' := by simpa using hc
      decide
  · cases hu : u.toList with
    | nil =>
      obtain rfl : '|' = c := by simpa [hu] using hc
      decide
    | cons first rest =>
      obtain rfl : first = c := by simpa [hu] using hc
      exact hhead first (by simp [hu])

theorem Deployment.Unmixed.not_past_hash (hunmixed : d.Unmixed argon sha256) {t u h h' : String}
    {l l' : List String} (ht : t ∈ d.tenants argon) (htu : t ++ "|" ++ u ∈ d.tenants argon)
    (hh : h ∈ d.hashes sha256) (hh' : h' ∈ d.hashes sha256) (hl : l ∈ d.ladders)
    (hl' : l' ∈ d.ladders) :
    h ++ "|" ++ ">".intercalate l ≠ u ++ "|" ++ (h' ++ "|" ++ ">".intercalate l') := by
  intro heq
  obtain ⟨w, rfl, htext⟩ := hash_then (bar_notMem_hashes hh) heq
  refine hunmixed.hashes t w ht h hh htu h' hh' l hl l' hl' ?_
  simpa [String.append_assoc] using htext

/-- The keys of a deployment tell its tenants, prompts, ladders and sessions apart if and only
if no id of a tenant is mixed up with another and no two ladders read the same. -/
theorem keys_apart_iff (argon : Argon2) (sha256 : Bytes → Bytes) (d : Deployment F) :
    d.Apart argon sha256 ↔ d.Unmixed argon sha256 := by
  constructor
  · rintro ⟨hcache, hpromotion⟩
    refine ⟨fun t u ht htu hopens => ?_, ?_, ?_⟩
    · have hempty : Visible "" := by simp [Visible]
      have hx : "" ++ "x" ∈ d.sessions sha256 := mem_sessions hempty (by simp) (by simp)
      have hsession : u ++ "|" ++ "x" ∈ d.sessions sha256 :=
        hopens.mem_sessions (visible_of_tenants ht htu)
      have hkey : promotionKey t (u ++ "|" ++ "x") = promotionKey (t ++ "|" ++ u) "x" := by
        simp [promotionKey, String.append_assoc]
      obtain ⟨htenant, -⟩ := hpromotion t ht _ htu _ hsession _ hx hkey
      have hlen := congrArg (fun s : String => s.toList.length) htenant
      simp at hlen
    · rintro ⟨t, ht⟩ l hl l' hl' htext
      have hh : promptHash sha256 d.promptSalt [] ∈ d.hashes sha256 := ⟨[], rfl⟩
      exact (hcache t ht t ht _ hh _ hh l hl l' hl' (by simp [composeKey, htext])).2.2
    · intro t w ht h hh htw h' hh' l hl l' hl' htext
      have hkey : composeKey t h l = composeKey (t ++ "|" ++ (h ++ w)) h' l' := by
        calc composeKey t h l = t ++ "|" ++ h ++ ("|" ++ ">".intercalate l) := by
              simp [composeKey, String.append_assoc]
          _ = t ++ "|" ++ h ++ (w ++ "|" ++ h' ++ "|" ++ ">".intercalate l') := by rw [htext]
          _ = composeKey (t ++ "|" ++ (h ++ w)) h' l' := by simp [composeKey, String.append_assoc]
      obtain ⟨htenant, -⟩ := hcache t ht _ htw h hh h' hh' l hl l' hl' hkey
      have hlen := congrArg (fun s : String => s.toList.length) htenant
      simp at hlen
  · intro hunmixed
    refine ⟨?_, ?_⟩
    · intro t ht t' ht' h hh h' hh' l hl l' hl' hkey
      have hparts : t ++ "|" ++ (h ++ "|" ++ ">".intercalate l) =
          t' ++ "|" ++ (h' ++ "|" ++ ">".intercalate l') := by
        simpa [composeKey, String.append_assoc] using hkey
      rcases append_bar_eq hparts with ⟨rfl, hrest⟩ | ⟨u, rfl, hrest⟩ | ⟨u, rfl, hrest⟩
      · have hlists : h.toList ++ '|' :: (">".intercalate l).toList =
            h'.toList ++ '|' :: (">".intercalate l').toList := by
          simpa using congrArg String.toList hrest
        obtain ⟨hhash, htext⟩ := Separator.append_cons_inj_left (bar_notMem_hashes hh)
          (bar_notMem_hashes hh') hlists
        exact ⟨rfl, String.toList_inj.mp hhash,
          hunmixed.ladders ⟨t, ht⟩ l hl l' hl' (String.toList_inj.mp htext)⟩
      · exact (hunmixed.not_past_hash ht ht' hh hh' hl hl' hrest).elim
      · exact (hunmixed.not_past_hash ht' ht hh' hh hl' hl hrest).elim
    · intro t ht t' ht' s hs s' hs' hkey
      rcases append_bar_eq hkey with hsame | ⟨u, rfl, rfl⟩ | ⟨u, rfl, rfl⟩
      · exact hsame
      · exact absurd (opens_of_session hs hs') (hunmixed.sessions t u ht ht')
      · exact absurd (opens_of_session hs' hs) (hunmixed.sessions t' u ht' ht)

-- ---------------------------------------------------------------------------
-- Two keys that collide
-- ---------------------------------------------------------------------------

def sampleArgon : Argon2 where
  parses hash := Inbound.startsWith hash "$argon2id$"
  verifies hash secret := hash = "$argon2id$" ++ secret

def sampleRoute (agent : Option String) (ladder : List String) : Route ℚ :=
  { ResponseCache.sampleRoute agent ["non-empty"] with ladder }

/-- A tenant and a part of it, and two ladders that differ in where a rung ends. -/
def sampleDeployment : Deployment ℚ where
  auth := ⟨true, "default", ⟨[("acme", "$argon2id$one"), ("acme|eu", "$argon2id$two")]⟩⟩
  promptSalt := "salt"
  routing :=
    { ResponseCache.sampleEnv.config with
      routes := [sampleRoute (some "chat") ["a/m>x", "b/n"], sampleRoute none ["a/m", "x>b/n"]] }

def sampleHeaders (key session : String) : Headers := fun name =>
  if name = "x-firstpass-key" then some key
  else if name = "x-firstpass-session" then some session
  else none

theorem legible_sampleHeaders {key session : String} (hkey : Visible key)
    (hsession : Visible session) : Legible (sampleHeaders key session) := by
  intro name v hv
  simp only [sampleHeaders, Option.mem_def] at hv
  split at hv
  · exact Option.some.inj hv ▸ hkey
  · split at hv
    · exact Option.some.inj hv ▸ hsession
    · cases hv

/-- One session of a tenant has the promotion key of a session of another, and the answers of
one ladder have the cache keys of another's. -/
theorem keys_collide :
    TenantKeys.fromJson sampleArgon (.object
        [("acme", .string "$argon2id$one"), ("acme|eu", .string "$argon2id$two")]) =
      .ok sampleDeployment.auth.tenantKeys ∧
    (authMiddleware sampleArgon sampleDeployment.auth (sampleHeaders "acme.one" "eu|x")).map
      Admitted.tenant = some "acme" ∧
    (authMiddleware sampleArgon sampleDeployment.auth (sampleHeaders "acme|eu.two" "x")).map
      Admitted.tenant = some "acme|eu" ∧
    headerSession (fun _ => []) (sampleHeaders "acme.one" "eu|x") "salt" = some "eu|x" ∧
    headerSession (fun _ => []) (sampleHeaders "acme|eu.two" "x") "salt" = some "x" ∧
    promotionKey "acme" "eu|x" = promotionKey "acme|eu" "x" ∧
    composeKey "acme" "" ["a/m>x", "b/n"] = composeKey "acme" "" ["a/m", "x>b/n"] ∧
    ¬ sampleDeployment.Apart sampleArgon fun _ => [] := by
  have hfirst : (authMiddleware sampleArgon sampleDeployment.auth
      (sampleHeaders "acme.one" "eu|x")).map Admitted.tenant = some "acme" := by decide +kernel
  have hsecond : (authMiddleware sampleArgon sampleDeployment.auth
      (sampleHeaders "acme|eu.two" "x")).map Admitted.tenant = some "acme|eu" := by decide +kernel
  have hnamed : headerSession (fun _ => []) (sampleHeaders "acme.one" "eu|x") "salt" =
      some "eu|x" := by decide +kernel
  have hnamed' : headerSession (fun _ => []) (sampleHeaders "acme|eu.two" "x") "salt" =
      some "x" := by decide +kernel
  have hkey : promotionKey "acme" "eu|x" = promotionKey "acme|eu" "x" := by decide
  refine ⟨by decide +kernel, hfirst, hsecond, hnamed, hnamed', hkey, by decide +kernel, ?_⟩
  let arrival (key session : String) (hkey : Visible key) (hsession : Visible session) : Arrival :=
    { headers := sampleHeaders key session
      body := ⟨[], none⟩
      fresh := "00000000-0000-0000-0000-000000000000"
      legible := legible_sampleHeaders hkey hsession
      uuid := by simp }
  let a := arrival "acme.one" "eu|x" (by simp [Visible, isVisible]) (by simp [Visible, isVisible])
  let b := arrival "acme|eu.two" "x" (by simp [Visible, isVisible]) (by simp [Visible, isVisible])
  intro hapart
  obtain ⟨admitted, hadmitted, htenant⟩ := Option.map_eq_some_iff.mp hfirst
  obtain ⟨admitted', hadmitted', htenant'⟩ := Option.map_eq_some_iff.mp hsecond
  have hs : "eu|x" ∈ sampleDeployment.sessions fun _ => [] :=
    ⟨a, by simp [Arrival.session, a, arrival, sampleDeployment, hnamed]⟩
  have hs' : "x" ∈ sampleDeployment.sessions fun _ => [] :=
    ⟨b, by simp [Arrival.session, b, arrival, sampleDeployment, hnamed']⟩
  obtain ⟨hsame, -⟩ := hapart.promotion "acme" ⟨a, admitted, hadmitted, htenant⟩ "acme|eu"
    ⟨b, admitted', hadmitted', htenant'⟩ _ hs _ hs' hkey
  exact absurd hsame (by decide)

end Firstpass.KeysApart
