import Firstpass.Core.HashChain
import Firstpass.Core.JsonText
import Firstpass.Lib.LinkedChain

/-!
# What `verifyChain` proves about a log

`verifyChain_ok`: a log verifies exactly when it is a linked list from genesis.
`tamper_evident`: under a hash without collisions, the last record's hash fixes
the whole log, and an edit before the last record is reported where it was made
or one place after. `altered_detected_iff`: an altered record is detected
unless it is the last one and keeps its link.
-/

namespace Firstpass.HashChain

open Json (Value UniqueKeys EqUpToKeyOrder)
open LinkedChain

-- ---------------------------------------------------------------------------
-- Records as linked lists
-- ---------------------------------------------------------------------------

theorem bind_ok {x : Except ε α} {f : α → Except ε β} :
    (x >>= f) = .ok b ↔ ∃ a, x = .ok a ∧ f a = .ok b := by
  cases x <;> simp [bind, Except.bind]

variable {T : Type} [Serialize T] {sha256Hex : String → String}

def HashesTo (sha256Hex : String → String) (r : T) (h : String) : Prop :=
  recordHash sha256Hex r = .ok h

/-- The two records serialize to one value, up to the order of keys. -/
def SameContent (r r' : T) : Prop :=
  ∃ v v', toValue r = .ok v ∧ toValue r' = .ok v' ∧ EqUpToKeyOrder v v'

theorem canonicalJson_ok {r : T} :
    canonicalJson r = .ok text ↔ ∃ v, toValue r = .ok v ∧ Json.canonicalJson v = text := by
  cases h : toValue r <;> simp [canonicalJson, h, bind, Except.bind, Except.mapError, pure,
    Except.pure]

theorem recordHash_ok {r : T} : recordHash sha256Hex r = .ok h ↔
    ∃ v, toValue r = .ok v ∧ sha256Hex (Json.canonicalJson v) = h := by
  simp only [recordHash, bind_ok, canonicalJson_ok, pure, Except.pure, Except.ok.injEq]
  constructor
  · rintro ⟨_, ⟨v, hv, rfl⟩, rfl⟩; exact ⟨v, hv, rfl⟩
  · rintro ⟨v, hv, rfl⟩; exact ⟨_, ⟨v, hv, rfl⟩, rfl⟩

theorem HashesTo.functional {r : T} (h₁ : HashesTo sha256Hex r h) (h₂ : HashesTo sha256Hex r h') :
    h = h' := Except.ok.inj (h₁.symm.trans h₂)

variable [Chained T]

theorem verifyFrom_ok {rs : List T} : verifyFrom sha256Hex i g rs = .ok () ↔
    ∃ e, Linked prevHash (HashesTo sha256Hex) g rs e := by
  induction rs generalizing i g with
  | nil => simp [verifyFrom, linked_nil_iff]
  | cons r rs ih =>
    simp only [linked_cons_iff, exists_and_left]
    by_cases hl : prevHash r = g
    · simp only [verifyFrom, hl, ne_eq, not_true_eq_false, if_false, bind_ok, ih, true_and]
      constructor
      · rintro ⟨h, hh, e, he⟩; exact ⟨e, h, hh, he⟩
      · rintro ⟨e, h, hh, he⟩; exact ⟨h, hh, e, he⟩
    · simp [verifyFrom, hl]

theorem verifyChain_ok {rs : List T} : verifyChain sha256Hex rs g = .ok () ↔
    ∃ e, Linked prevHash (HashesTo sha256Hex) g rs e := verifyFrom_ok

theorem verifyFrom_append {front : List T}
    (h : Linked prevHash (HashesTo sha256Hex) g front m) :
    verifyFrom sha256Hex i g (front ++ rest) =
      verifyFrom sha256Hex (i + front.length) m rest := by
  induction h generalizing i with
  | nil => rfl
  | cons hl hh _ ih =>
    have hh' : recordHash sha256Hex _ = .ok _ := hh
    simp only [List.cons_append, verifyFrom, hl, ne_eq, not_true_eq_false, if_false, hh',
      List.length_cons]
    rw [← Nat.add_assoc, Nat.add_right_comm]
    exact ih

theorem verifyFrom_cons_of_ne {r : T} (h : prevHash r ≠ g) : verifyFrom sha256Hex i g (r :: rs) =
    .error (.chainBroken i (linkMismatch g (prevHash r))) := by
  simp [verifyFrom, h]

theorem verifyFrom_cons_of_hash {r : T} (hh : HashesTo sha256Hex r h) :
    verifyFrom sha256Hex i (prevHash r) (r :: rs) = verifyFrom sha256Hex (i + 1) h rs := by
  have hh' : recordHash sha256Hex r = .ok h := hh
  simp [verifyFrom, hh', bind, Except.bind]

theorem verifyFrom_cons_of_error {r : T} (he : recordHash sha256Hex r = .error e) :
    verifyFrom sha256Hex i (prevHash r) (r :: rs) = .error e := by
  simp [verifyFrom, he, bind, Except.bind]

theorem verifyChain_error {rs : List T} (h : verifyChain sha256Hex rs g ≠ .ok ()) :
    ∃ e, verifyChain sha256Hex rs g = .error e := by
  cases hv : verifyChain sha256Hex rs g with
  | error e => exact ⟨e, rfl⟩
  | ok u => exact absurd hv h

def lastHash (sha256Hex : String → String) (rs : List T) : Option (Except Error String) :=
  rs.getLast?.map (recordHash sha256Hex)

theorem linked_lastHash {rs : List T} (h : Linked prevHash (HashesTo sha256Hex) g rs e) :
    lastHash sha256Hex rs = if rs = [] then none else some (.ok e) := by
  cases rs using List.reverseRecOn with
  | nil => rfl
  | append_singleton front r =>
    have hh : recordHash sha256Hex r = .ok e := (linked_concat_iff.mp h).2
    simp [lastHash, hh]

-- ---------------------------------------------------------------------------
-- Edits before the last record
-- ---------------------------------------------------------------------------

/-- `rs'` is `rs` with one record before the last changed, inserted or removed
at position `i`. -/
inductive EditedAt : Nat → List T → List T → Prop
  | change (front : List T) : ¬ SameContent r r' →
      EditedAt front.length (front ++ r :: next :: back) (front ++ r' :: next :: back)
  | insert : EditedAt front.length (front ++ next :: back) (front ++ r :: next :: back)
  | remove : EditedAt front.length (front ++ r :: next :: back) (front ++ next :: back)

/-- The error is raised at position `i`: its link does not match, or its record
cannot be hashed. -/
def RaisedAt (sha256Hex : String → String) (rs : List T) (i : Nat) (e : Error) : Prop :=
  (∃ detail, e = .chainBroken i detail) ∨ ∃ r, rs[i]? = some r ∧ recordHash sha256Hex r = .error e

/-- A record put before `next` is noticed at once, or as soon as `next` is
reached, unless its hash is the one `next` links to. -/
theorem raisedAt_of_link {r next : T} (hfront : Linked prevHash (HashesTo sha256Hex) g front m)
    (hlink : prevHash r = m → ¬ HashesTo sha256Hex r (prevHash next)) :
    ∃ e, verifyChain sha256Hex (front ++ r :: next :: back) g = .error e ∧
      (RaisedAt sha256Hex (front ++ r :: next :: back) front.length e ∨
        RaisedAt sha256Hex (front ++ r :: next :: back) (front.length + 1) e) := by
  rw [verifyChain, verifyFrom_append hfront, Nat.zero_add]
  by_cases hm : prevHash r = m
  · subst hm
    cases hh : recordHash sha256Hex r with
    | error e =>
      exact ⟨e, verifyFrom_cons_of_error hh, .inl (.inr ⟨r, by simp, hh⟩)⟩
    | ok h =>
      have hne : prevHash next ≠ h := fun he => hlink rfl (he ▸ hh)
      rw [verifyFrom_cons_of_hash hh, verifyFrom_cons_of_ne hne]
      exact ⟨_, rfl, .inr (.inl ⟨_, rfl⟩)⟩
  · rw [verifyFrom_cons_of_ne hm]
    exact ⟨_, rfl, .inl (.inl ⟨_, rfl⟩)⟩

-- ---------------------------------------------------------------------------
-- The hash as a commitment
-- ---------------------------------------------------------------------------

/-- What deriving `Serialize` on a struct with a `prev_hash` field gives. -/
class LawfulRecord (T : Type) [Serialize T] [Chained T] : Prop where
  uniqueKeys : ∀ {r : T} {v}, toValue r = .ok v → UniqueKeys v
  prevHashField : ∀ {r : T} {v}, toValue r = .ok v →
    v.get "prev_hash" = some (.string (prevHash r))

/-- SHA-256 has no collision among the canonical texts of the records of `S`. -/
def CollisionFree (sha256Hex : String → String) (S : T → Prop) : Prop :=
  ∀ r r' v v', S r → S r' → toValue r = .ok v → toValue r' = .ok v' →
    sha256Hex (Json.canonicalJson v) = sha256Hex (Json.canonicalJson v') →
    Json.canonicalJson v = Json.canonicalJson v'

/-- No record of `S` hashes to `genesisHash`. -/
def AvoidsGenesis (sha256Hex : String → String) (S : T → Prop) : Prop :=
  ∀ r, S r → ¬ HashesTo sha256Hex r genesisHash

variable [LawfulRecord T]

theorem sameContent_of_hash {r r' : T} (hc : CollisionFree sha256Hex S) (hr : S r) (hr' : S r')
    (hh : HashesTo sha256Hex r h) (hh' : HashesTo sha256Hex r' h) : SameContent r r' := by
  obtain ⟨v, hv, rfl⟩ := recordHash_ok.mp hh
  obtain ⟨v', hv', he⟩ := recordHash_ok.mp hh'
  have htext := hc r r' v v' hr hr' hv hv' he.symm
  exact ⟨v, v', hv, hv', (Json.canonicalJson_eq_iff (LawfulRecord.uniqueKeys hv)
    (LawfulRecord.uniqueKeys hv')).mp htext⟩

theorem SameContent.prevHash_eq {r r' : T} (h : SameContent r r') : prevHash r = prevHash r' := by
  obtain ⟨v, v', hv, hv', heq⟩ := h
  have hu := LawfulRecord.uniqueKeys hv
  have hu' := LawfulRecord.uniqueKeys hv'
  have hget := Json.get_canonicalize hu "prev_hash"
  rw [(heq.canonicalize_eq hu).2, Json.get_canonicalize hu' "prev_hash",
    LawfulRecord.prevHashField hv, LawfulRecord.prevHashField hv'] at hget
  simpa [Json.canonicalize, eq_comm] using hget

theorem commits {S : T → Prop} (hc : CollisionFree sha256Hex S) (hg : AvoidsGenesis sha256Hex S) :
    Commits prevHash (HashesTo sha256Hex) SameContent genesisHash S where
  content := sameContent_of_hash hc
  sameLink := fun _ _ => SameContent.prevHash_eq
  fresh := hg _

-- ---------------------------------------------------------------------------
-- Tamper evidence
-- ---------------------------------------------------------------------------

theorem editedAt_raisedAt {rs rs' : List T} (hc : CollisionFree sha256Hex S)
    (hg : AvoidsGenesis sha256Hex S) (hs : ∀ r ∈ rs, S r) (hs' : ∀ r ∈ rs', S r)
    (hv : verifyChain sha256Hex rs genesisHash = .ok ()) (hedit : EditedAt i rs rs') :
    ∃ e, verifyChain sha256Hex rs' genesisHash = .error e ∧
      (RaisedAt sha256Hex rs' i e ∨ RaisedAt sha256Hex rs' (i + 1) e) := by
  obtain ⟨last, hl⟩ := verifyChain_ok.mp hv
  cases hedit with
  | @change r r' next back front hne =>
    obtain ⟨m, hfront, hrest⟩ := linked_append_iff.mp hl
    obtain ⟨rfl, h, hh, hrest⟩ := linked_cons_iff.mp hrest
    obtain ⟨rfl, _⟩ := linked_cons_iff.mp hrest
    refine raisedAt_of_link hfront fun _ hh' => hne ?_
    exact sameContent_of_hash hc (hs r (by simp)) (hs' r' (by simp)) hh hh'
  | @insert front next back r =>
    obtain ⟨m, hfront, hrest⟩ := linked_append_iff.mp hl
    obtain ⟨hnext, _⟩ := linked_cons_iff.mp hrest
    refine raisedAt_of_link hfront fun hm hh => ?_
    rw [hnext, ← hm] at hh
    rw [← hm] at hfront
    exact Linked.not_fixed (commits hc hg) (fun x hx => hs x (by simp [hx]))
      (hs' r (by simp)) hfront hh
  | @remove front r next back =>
    obtain ⟨m, hfront, hrest⟩ := linked_append_iff.mp hl
    obtain ⟨rfl, h, hh, hrest⟩ := linked_cons_iff.mp hrest
    obtain ⟨hnext, _⟩ := linked_cons_iff.mp hrest
    have hne : prevHash next ≠ prevHash r := by
      intro heq
      rw [← hnext, heq] at hh
      exact Linked.not_fixed (commits hc hg) (fun x hx => hs x (by simp [hx]))
        (hs r (by simp)) hfront hh
    rw [verifyChain, verifyFrom_append hfront, Nat.zero_add, verifyFrom_cons_of_ne hne]
    exact ⟨_, rfl, .inl (.inl ⟨_, rfl⟩)⟩

theorem forall₂_of_lastHash {rs rs' : List T} (hc : CollisionFree sha256Hex S)
    (hg : AvoidsGenesis sha256Hex S) (hs : ∀ r ∈ rs, S r) (hs' : ∀ r ∈ rs', S r)
    (hv : verifyChain sha256Hex rs genesisHash = .ok ())
    (hv' : verifyChain sha256Hex rs' genesisHash = .ok ())
    (hlast : lastHash sha256Hex rs = lastHash sha256Hex rs') :
    List.Forall₂ SameContent rs rs' := by
  obtain ⟨e, hl⟩ := verifyChain_ok.mp hv
  obtain ⟨e', hl'⟩ := verifyChain_ok.mp hv'
  rw [linked_lastHash hl, linked_lastHash hl'] at hlast
  by_cases hrs : rs = []
  · by_cases hrs' : rs' = []
    · rw [hrs, hrs']; exact .nil
    · simp [hrs, hrs'] at hlast
  · by_cases hrs' : rs' = []
    · simp [hrs, hrs'] at hlast
    · simp only [hrs, hrs', if_false, Option.some.injEq, Except.ok.injEq] at hlast
      exact Linked.unique (commits hc hg) hs hs' hl (hlast ▸ hl')

/-- Tamper evidence, over the records `S` under consideration. -/
theorem tamper_evident {S : T → Prop} (hc : CollisionFree sha256Hex S)
    (hg : AvoidsGenesis sha256Hex S) :
    (∀ rs rs' : List T, (∀ r ∈ rs, S r) → (∀ r ∈ rs', S r) →
      verifyChain sha256Hex rs genesisHash = .ok () →
      verifyChain sha256Hex rs' genesisHash = .ok () →
      lastHash sha256Hex rs = lastHash sha256Hex rs' → List.Forall₂ SameContent rs rs') ∧
    (∀ rs rs' : List T, (∀ r ∈ rs, S r) → (∀ r ∈ rs', S r) →
      verifyChain sha256Hex rs genesisHash = .ok () → rs'.getLast? = rs.getLast? →
      ¬ List.Forall₂ SameContent rs rs' →
      ∃ e, verifyChain sha256Hex rs' genesisHash = .error e) ∧
    (∀ i (rs rs' : List T), (∀ r ∈ rs, S r) → (∀ r ∈ rs', S r) →
      verifyChain sha256Hex rs genesisHash = .ok () → EditedAt i rs rs' →
      ∃ e, verifyChain sha256Hex rs' genesisHash = .error e ∧
        (RaisedAt sha256Hex rs' i e ∨ RaisedAt sha256Hex rs' (i + 1) e)) := by
  refine ⟨fun rs rs' hs hs' => forall₂_of_lastHash hc hg hs hs', ?_,
    fun i rs rs' hs hs' => editedAt_raisedAt hc hg hs hs'⟩
  intro rs rs' hs hs' hv hlast hdiff
  refine verifyChain_error fun hv' => hdiff ?_
  exact forall₂_of_lastHash hc hg hs hs' hv hv' (by rw [lastHash, lastHash, hlast])

-- ---------------------------------------------------------------------------
-- One altered record
-- ---------------------------------------------------------------------------

/-- An altered record is detected exactly when a record follows it, its link
changed, or it cannot be hashed. -/
theorem altered_detected_iff {rs : List T} {r r' : T}
    (hc : CollisionFree sha256Hex fun x => x = r ∨ x = r')
    (hv : verifyChain sha256Hex rs genesis = .ok ()) (hi : rs[i]? = some r)
    (hdiff : ¬ SameContent r r') :
    (∃ e, verifyChain sha256Hex (rs.set i r') genesis = .error e) ↔
      i + 1 < rs.length ∨ prevHash r' ≠ prevHash r ∨
        ∃ e, recordHash sha256Hex r' = .error e := by
  obtain ⟨hlt, rfl⟩ := List.getElem?_eq_some_iff.mp hi
  obtain ⟨front, back, hrs, rfl, hset⟩ :
      ∃ front back, rs = front ++ rs[i] :: back ∧ front.length = i ∧
        rs.set i r' = front ++ r' :: back := List.exists_of_set hlt
  have hlen : rs.length = front.length + (back.length + 1) := by
    simpa using congrArg List.length hrs
  generalize rs[front.length] = r at hrs hc hdiff
  obtain ⟨e, hl⟩ := verifyChain_ok.mp hv
  obtain ⟨m, hfront, hrest⟩ := linked_append_iff.mp (hrs ▸ hl)
  obtain ⟨rfl, h, hh, hback⟩ := linked_cons_iff.mp hrest
  rw [hset, hlen, verifyChain, verifyFrom_append hfront, Nat.zero_add]
  by_cases hm : prevHash r' = prevHash r
  · rw [← hm]
    cases hh' : recordHash sha256Hex r' with
    | error e => simp [verifyFrom_cons_of_error hh']
    | ok h' =>
      rw [verifyFrom_cons_of_hash hh']
      cases back with
      | nil => simp [verifyFrom]
      | cons next back =>
        have hne : prevHash next ≠ h' := by
          obtain ⟨rfl, _⟩ := linked_cons_iff.mp hback
          rintro rfl
          exact hdiff (sameContent_of_hash hc (.inl rfl) (.inr rfl) hh hh')
        simp [verifyFrom_cons_of_ne hne]
  · simp [verifyFrom_cons_of_ne hm, hm]

-- ---------------------------------------------------------------------------
-- A record of two fields
-- ---------------------------------------------------------------------------

structure Rec where
  prevHash : String
  n : Nat
  deriving DecidableEq

instance : Serialize Rec where
  toValue rec := .ok (.object [("prev_hash", .string rec.prevHash), ("n", .number (.posInt rec.n))])

instance : Chained Rec := ⟨Rec.prevHash⟩

instance : LawfulRecord Rec where
  uniqueKeys := by
    rintro r _ ⟨⟩
    refine .object (by simp) ?_
    simp only [List.mem_cons, List.not_mem_nil, or_false]
    rintro _ (rfl | rfl)
    · exact .string
    · exact .number
  prevHashField := by rintro r _ ⟨⟩; rfl

def rec10 : Rec := ⟨genesisHash, 10⟩
def rec20 : Rec := ⟨"fbb4d25048287409b28f199d81cc7abf56eced4e084a45f0a56950c27f64ef73", 20⟩
def rec999 : Rec := ⟨genesisHash, 999⟩

def recDigest (text : String) : String :=
  if canonicalJson rec10 = .ok text then
    "fbb4d25048287409b28f199d81cc7abf56eced4e084a45f0a56950c27f64ef73"
  else if canonicalJson rec999 = .ok text then
    "fbe88a75c0f3569626b28c8785c4f3bd81707c3950c5d9e53276e8bf85de568f"
  else
    "26e586d0ab564da612362f0f2f07fd4c2e110e694bba02c51aa70d1dae8f53c5"

theorem recordHash_rec10 : recordHash recDigest rec10 =
    .ok "fbb4d25048287409b28f199d81cc7abf56eced4e084a45f0a56950c27f64ef73" := by decide +kernel

theorem recordHash_rec20 : recordHash recDigest rec20 =
    .ok "26e586d0ab564da612362f0f2f07fd4c2e110e694bba02c51aa70d1dae8f53c5" := by decide +kernel

theorem recordHash_rec999 : recordHash recDigest rec999 =
    .ok "fbe88a75c0f3569626b28c8785c4f3bd81707c3950c5d9e53276e8bf85de568f" := by decide +kernel

theorem recDigest_injective {r r' : Rec} (hr : r ∈ [rec10, rec20, rec999])
    (hr' : r' ∈ [rec10, rec20, rec999])
    (hh : recordHash recDigest r = recordHash recDigest r') : r = r' := by
  simp only [List.mem_cons, List.not_mem_nil, or_false] at hr hr'
  rcases hr with rfl | rfl | rfl <;> rcases hr' with rfl | rfl | rfl <;>
    first
    | rfl
    | simp [recordHash_rec10, recordHash_rec20, recordHash_rec999] at hh

theorem recDigest_collisionFree : CollisionFree recDigest fun r => r ∈ [rec10, rec20, rec999] := by
  intro r r' v v' hr hr' hv hv' hh
  obtain rfl : r = r' := by
    refine recDigest_injective hr hr' ?_
    rw [recordHash_ok.mpr ⟨v, hv, rfl⟩, recordHash_ok.mpr ⟨v', hv', rfl⟩, hh]
  rw [Except.ok.inj (hv.symm.trans hv')]

theorem recDigest_avoidsGenesis : AvoidsGenesis recDigest fun r => r ∈ [rec10, rec20, rec999] := by
  intro r hr hh
  have hhash : recordHash recDigest r = .ok genesisHash := hh
  simp only [List.mem_cons, List.not_mem_nil, or_false] at hr
  rcases hr with rfl | rfl | rfl <;>
    simp [recordHash_rec10, recordHash_rec20, recordHash_rec999, genesisHash] at hhash

theorem rec10_ne_rec999 : ¬ SameContent rec10 rec999 := by
  rintro ⟨v, v', hv, hv', h⟩
  have htext := (Json.canonicalJson_eq_iff (LawfulRecord.uniqueKeys hv)
    (LawfulRecord.uniqueKeys hv')).mpr h
  have hsame : rec10 = rec999 := by
    refine recDigest_injective (by simp) (by simp) ?_
    rw [recordHash_ok.mpr ⟨v, hv, rfl⟩, recordHash_ok.mpr ⟨v', hv', rfl⟩, htext]
  exact absurd hsame (by decide)

theorem rec_chain_verifies : verifyChain recDigest [rec10, rec20] genesisHash = .ok () :=
  (verifyFrom_cons_of_hash recordHash_rec10).trans (verifyFrom_cons_of_hash recordHash_rec20)

theorem tamper_evident_rec : ∃ e,
    verifyChain recDigest [rec999, rec20] genesisHash = .error e ∧
      (RaisedAt recDigest [rec999, rec20] 0 e ∨ RaisedAt recDigest [rec999, rec20] (0 + 1) e) :=
  (tamper_evident recDigest_collisionFree recDigest_avoidsGenesis).2.2 0 [rec10, rec20]
    [rec999, rec20] (by simp) (by simp) rec_chain_verifies (.change [] rec10_ne_rec999)

theorem last_record_altered :
    CollisionFree recDigest (fun r => r = rec10 ∨ r = rec999) ∧
      verifyChain recDigest [rec10] genesisHash = .ok () ∧ ¬ SameContent rec10 rec999 ∧
      verifyChain recDigest ([rec10].set 0 rec999) genesisHash = .ok () := by
  refine ⟨fun r r' v v' hr hr' => recDigest_collisionFree r r' v v' ?_ ?_,
    verifyFrom_cons_of_hash recordHash_rec10, rec10_ne_rec999,
    verifyFrom_cons_of_hash recordHash_rec999⟩
  · rcases hr with rfl | rfl <;> simp
  · rcases hr' with rfl | rfl <;> simp

theorem altered_detected_rec :
    (∃ e, verifyChain recDigest ([rec10, rec20].set 0 rec999) genesisHash = .error e) ↔
      0 + 1 < [rec10, rec20].length ∨ prevHash rec999 ≠ prevHash rec10 ∨
        ∃ e, recordHash recDigest rec999 = .error e :=
  altered_detected_iff last_record_altered.1 rec_chain_verifies rfl rec10_ne_rec999

end Firstpass.HashChain
