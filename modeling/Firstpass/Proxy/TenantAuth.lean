import Firstpass.Proxy.Inbound

/-!
# Whose request it is

The tenant of a request comes from its key alone, or is the static one where authentication is
off. A key is the id of its tenant and a secret, split at the first dot.

Left out: the decoy hash that an unknown tenant is checked against, which changes only the time
a refusal takes, and the provisioning of new keys.
-/

namespace Firstpass.TenantAuth

open Inbound
open Json (Value)

/-- The password hashes: `PasswordHash::new`, and `verify_password` of a hash with a secret. -/
structure Argon2 where
  parses : String → Bool
  verifies : String → String → Bool

inductive AuthConfigError
  | json
  | badHash (tenant : String)
  deriving DecidableEq

/-- The hash of the secret of each tenant. -/
structure TenantKeys where
  hashes : List (String × String)
  deriving DecidableEq

/-- `str::split_once` -/
def splitOnce (c : Char) (s : String) : Option (String × String) :=
  match s.toList.dropWhile (· ≠ c) with
  | [] => none
  | _ :: rest => some (String.ofList (s.toList.takeWhile (· ≠ c)), String.ofList rest)

def stripPrefix (pattern s : String) : Option String :=
  if startsWith s pattern then some (String.ofList (s.toList.drop pattern.toList.length)) else none

section
variable (argon : Argon2)

/-- The first hash that does not parse is reported, in the order of the roster here. -/
def TenantKeys.fromJson (roster : Value) : Except AuthConfigError TenantKeys :=
  match roster with
  | .object fields =>
    match fields.mapM fun (tenant, hash) => hash.asStr.map fun hash => (tenant, hash) with
    | none => .error .json
    | some hashes =>
      match hashes.find? fun (_, hash) => !argon.parses hash with
      | some (tenant, _) => .error (.badHash tenant)
      | none => .ok ⟨hashes⟩
  | _ => .error .json

def TenantKeys.verify (keys : TenantKeys) (presentedKey : String) : Option String :=
  let (tenantId, secret) := (splitOnce '.' presentedKey).getD ("", presentedKey)
  (keys.hashes.lookup tenantId).bind fun hash =>
    if argon.parses hash && argon.verifies hash secret then some tenantId else none

end

def bearer (headers : Headers) : Option String :=
  nonBlank ((headers "authorization").bind (stripPrefix "Bearer "))

def extractKey (headers : Headers) : Option String :=
  (nonBlank (headers "x-firstpass-key")).orElse fun _ => bearer headers

def keyCameFromBearerOnly (headers : Headers) : Bool :=
  (nonBlank (headers "x-firstpass-key")).isNone && (bearer headers).isSome

def remove (name : String) (headers : Headers) : Headers :=
  fun other => if other = name then none else headers other

/-- What the middleware adds to a request, and the headers it passes on. -/
structure Admitted where
  tenant : String
  headers : Headers

/-- Who may come in. -/
structure AuthConfig where
  requireAuth : Bool
  tenantId : String
  tenantKeys : TenantKeys

/-- A request that is refused has no value. -/
def authMiddleware (argon : Argon2) (c : AuthConfig) (headers : Headers) : Option Admitted :=
  if !c.requireAuth then some ⟨c.tenantId, headers⟩
  else
    ((extractKey headers).bind (c.tenantKeys.verify argon)).map fun tenant =>
      { tenant
        headers :=
          if keyCameFromBearerOnly headers then remove "authorization" headers else headers }

-- ---------------------------------------------------------------------------
-- Legible headers
-- ---------------------------------------------------------------------------

/-- The characters of a header value that is text. -/
def isVisible (c : Char) : Bool := (32 ≤ c.toNat && c.toNat < 127) || c = '\t'

def Visible (s : String) : Prop := ∀ c ∈ s.toList, isVisible c

def Legible (headers : Headers) : Prop := ∀ name, ∀ v ∈ headers name, Visible v

variable {argon : Argon2} {c : AuthConfig} {headers : Headers}

theorem utf8Size_of_visible {c : Char} (h : isVisible c) : c.utf8Size = 1 := by
  rw [Char.utf8Size_eq_one_iff]
  simp only [isVisible, Bool.or_eq_true, Bool.and_eq_true, decide_eq_true_eq] at h
  rcases h with ⟨-, hlt⟩ | rfl
  · exact UInt32.le_iff_toNat_le.mpr (Nat.le_of_lt_succ (hlt.trans (by decide)))
  · decide

theorem Visible.within {s s' : String} (h : Visible s) (hsub : s'.toList <:+: s.toList) :
    Visible s' :=
  fun c hc => h c (hsub.subset hc)

/-- What is read off a header is not blank, and is trimmed. -/
theorem nonBlank_eq_some {v : Option String} {s : String} (h : nonBlank v = some s) :
    s ≠ "" ∧ ∃ raw, v = some raw ∧ s = trim raw := by
  obtain ⟨hmap, hne⟩ := Option.filter_eq_some_iff.mp h
  obtain ⟨raw, hraw, rfl⟩ := Option.map_eq_some_iff.mp hmap
  exact ⟨by simpa using hne, raw, hraw, rfl⟩

theorem visible_nonBlank {v : Option String} {s : String} (hv : ∀ raw ∈ v, Visible raw)
    (h : nonBlank v = some s) : Visible s := by
  obtain ⟨-, raw, hraw, rfl⟩ := nonBlank_eq_some h
  exact (hv raw hraw).within (infix_trim raw)

theorem visible_extractKey (h : Legible headers) {key : String}
    (hkey : extractKey headers = some key) : Visible key := by
  simp only [extractKey, Option.orElse_eq_or, Option.or_eq_some_iff] at hkey
  rcases hkey with hkey | ⟨-, hkey⟩
  · exact visible_nonBlank (h _) hkey
  · refine visible_nonBlank (fun raw hraw => ?_) hkey
    obtain ⟨v, hv, hstrip⟩ := Option.bind_eq_some_iff.mp hraw
    simp only [stripPrefix, Option.ite_none_right_eq_some, Option.some.injEq] at hstrip
    obtain ⟨-, rfl⟩ := hstrip
    refine (h _ v hv).within ?_
    simpa using (List.drop_suffix _ v.toList).isInfix

/-- The id of a tenant is the part of its key before the dot. -/
theorem verify_eq_some {keys : TenantKeys} {key tenant : String}
    (h : keys.verify argon key = some tenant) : tenant.toList <+: key.toList := by
  simp only [TenantKeys.verify, Option.bind_eq_some_iff, Option.ite_none_right_eq_some,
    Option.some.injEq] at h
  obtain ⟨hash, -, -, rfl⟩ := h
  unfold splitOnce
  split
  · simp
  · simpa using List.takeWhile_prefix _

/-- A tenant that authenticates has an id of visible characters. -/
theorem visible_tenant (hauth : c.requireAuth = true) (h : Legible headers) {a : Admitted}
    (ha : authMiddleware argon c headers = some a) : Visible a.tenant := by
  simp only [authMiddleware, hauth, Bool.not_true, Bool.false_eq_true, if_false,
    Option.map_eq_some_iff] at ha
  obtain ⟨tenant, hverify, rfl⟩ := ha
  obtain ⟨key, hkey, htenant⟩ := Option.bind_eq_some_iff.mp hverify
  exact (visible_extractKey h hkey).within (verify_eq_some htenant).isInfix

/-- A token that was taken for the key of the tenant is not passed on. -/
theorem bearer_removed (hauth : c.requireAuth = true)
    (hkey : nonBlank (headers "x-firstpass-key") = none) {a : Admitted}
    (ha : authMiddleware argon c headers = some a) :
    a.headers "authorization" = none := by
  simp only [authMiddleware, hauth, Bool.not_true, Bool.false_eq_true, if_false,
    Option.map_eq_some_iff] at ha
  obtain ⟨tenant, hverify, rfl⟩ := ha
  obtain ⟨key, hextract, -⟩ := Option.bind_eq_some_iff.mp hverify
  have hbearer : bearer headers = some key := by simpa [extractKey, hkey] using hextract
  simp [keyCameFromBearerOnly, hkey, hbearer, remove]

end Firstpass.TenantAuth
