import Firstpass.Proxy.ReceiptExport
import Firstpass.Proxy.SharedCache

/-!
# Retractions reach every replica

`retraction_shared`: once a retraction has taken effect, no replica looks its answer up again, if no
command of the decision was lost. `shared_hit`: whatever is lost, what is looked up was put under
the same key, less than its time to live ago.
-/

namespace Firstpass.SharedCache

open ExpiringKeys
open Json (Readable canonicalize)
open ResponseCache (Entry Instant composeKey)

variable {F : Type} [F64 F] {tx : Texts F}

-- ---------------------------------------------------------------------------
-- The text of an entry is read back
-- ---------------------------------------------------------------------------

section
variable {e : Entry F} (h : EntryFits tx e)
include h

theorem responseOf_responseValue : responseOf (responseValue e.response) = some e.response := by
  obtain ⟨fs, hfs, hread⟩ := holds_record (rfl : responseValue e.response = record _) (by simp)
  simp only [holds_cons] at hread
  rw [responseOf]
  simp [↓bind_eq_some, hfs, hread, natOf_natValue h.inTokens, natOf_natValue h.cacheWriteTokens,
    natOf_natValue h.cacheReadTokens, natOf_natValue h.outTokens, h.raw.canonical]

theorem readable_entryValue (htx : tx.FloatsReadBack) :
    Readable tx.floatText Json.maxDepth (entryValue e) := by
  have hresponse : Readable tx.floatText 126 (responseValue e.response) := by
    refine readable_record fun f hf v hv => ?_
    simp only [List.mem_cons, List.not_mem_nil, or_false] at hf
    rcases hf with rfl | rfl | rfl | rfl | rfl | rfl | rfl
    all_goals obtain rfl := Option.some.inj hv
    · exact readable_string _
    · exact readable_string _
    · exact readable_natValue h.inTokens
    · exact readable_natValue h.cacheWriteTokens
    · exact readable_natValue h.cacheReadTokens
    · exact readable_natValue h.outTokens
    · exact h.raw.readable
  refine readable_record fun f hf v hv => ?_
  simp only [List.mem_cons, List.not_mem_nil, or_false] at hf
  rcases hf with rfl | rfl | rfl
  all_goals obtain rfl := Option.some.inj hv
  · exact hresponse
  · exact readable_string _
  · exact readable_floatValue htx h.originalCostUsd

/-- What is read is what was put, but for the time. -/
theorem entryOf_entryText (htx : tx.FloatsReadBack) (now : Instant) :
    entryOf tx (entryText e) now = some { e with stored := now } := by
  have htext : Json.fromStr tx.floatText (entryText e) = some (entryValue e) :=
    Json.fromStr_print (readable_entryValue h htx)
  obtain ⟨fs, hfs, hread⟩ := holds_record (rfl : entryValue e = record _) (by simp)
  simp only [holds_cons] at hread
  rw [entryOf, htext]
  simp [↓bind_eq_some, hfs, hread, responseOf_responseValue h, uuidOf, h.source,
    floatOf_floatValue htx h.originalCostUsd]

end

-- ---------------------------------------------------------------------------
-- The keys of the store
-- ---------------------------------------------------------------------------

def IsEntry (k : String) : Prop :=
  ∃ tenant promptHash ladder, k = entryKey (composeKey tenant promptHash ladder)

/-- A decision's id has no bar in it, and every entry's key has. -/
theorem IsEntry.ne_sourceKey {k source : String} (h : IsEntry k) (hid : '|' ∉ source.toList) :
    k ≠ sourceKey source := by
  obtain ⟨tenant, promptHash, ladder, rfl⟩ := h
  intro heq
  have hbar : '|' ∈ (sourceKey source).toList := by
    rw [← heq]
    simp [entryKey, composeKey]
  simp [sourceKey, hid] at hbar

theorem sourceKey_injective {a b : String} (h : sourceKey a = sourceKey b) : a = b := by
  have hlist := congrArg String.toList h
  simp only [sourceKey, String.toList_append, List.append_cancel_left_eq] at hlist
  exact String.toList_inj.mp hlist

theorem entryKey_injective {a b : String} (h : entryKey a = entryKey b) : a = b := by
  have hlist := congrArg String.toList h
  simp only [entryKey, String.toList_append, List.append_cancel_left_eq] at hlist
  exact String.toList_inj.mp hlist

omit [F64 F] in
theorem Put.isEntry (p : Put F) : IsEntry (entryKey p.key) :=
  ⟨p.tenant, p.promptHash, p.ladder, rfl⟩

section
variable {p : Put F} {stage : Stage} {k : String}

theorem setex_of_command {ttl : Nat} {body : String} (h : p.command stage = .setex k ttl body) :
    k = entryKey p.key ∧ ttl = p.ttlSecs ∧ body = entryText p.entry ∧ stage = .setex := by
  cases stage with
  | setex =>
    cases h
    exact ⟨rfl, rfl, rfl, rfl⟩
  | sadd => cases h
  | expire => cases h

theorem sadd_of_command {m : String} (h : p.command stage = .sadd k m) :
    k = sourceKey p.source ∧ m = entryKey p.key := by
  cases stage with
  | setex => cases h
  | sadd =>
    cases h
    exact ⟨rfl, rfl⟩
  | expire => cases h

theorem expire_of_command {ttl : Nat} (h : p.command stage = .expire k ttl) :
    k = sourceKey p.source ∧ ttl = p.ttlSecs := by
  cases stage with
  | setex => cases h
  | sadd => cases h
  | expire =>
    cases h
    exact ⟨rfl, rfl⟩

theorem command_keys {source : String} (hid : '|' ∉ source.toList) (hne : p.source ≠ source) :
    sourceKey source ∉ (p.command stage).keys := by
  have hindex : sourceKey source ≠ sourceKey p.source :=
    fun heq => hne (sourceKey_injective heq).symm
  cases stage with
  | setex => simpa [Put.command, Command.keys] using (p.isEntry.ne_sourceKey hid).symm
  | sadd => simpa [Put.command, Command.keys] using hindex
  | expire => simpa [Put.command, Command.keys] using hindex

end

-- ---------------------------------------------------------------------------
-- The shape of a state
-- ---------------------------------------------------------------------------

def Call.Shaped (tx : Texts F) : Call F → Prop
  | .putting p _ => '|' ∉ p.source.toList ∧ EntryFits tx p.entry
  | .deleting _ keys => ∀ k ∈ keys, IsEntry k
  | _ => True

/-- Texts are under the keys of entries, and an index has only such keys. -/
structure Tidy (server : Server) : Prop where
  texts : ∀ k body e, server.slots k = some ⟨.text body, e⟩ → IsEntry k
  members : ∀ k ms e, server.slots k = some ⟨.members ms, e⟩ → ∀ m ∈ ms, IsEntry m

structure Shaped (tx : Texts F) (s : State F) : Prop where
  server : Tidy s.server
  calls : ∀ c ∈ s.calls, c.Shaped tx

section
variable {server : Server} {s s' : State F} {ev : Event F}

theorem Tidy.exec (h : Tidy server) {p : Put F} {stage : Stage} :
    Tidy (server.exec (p.command stage)) where
  texts k body e hslot := by
    rcases slots_exec hslot with hold | ⟨ttl, _, hc, _⟩ | ⟨m, ms, hc, hcontent, _⟩ |
      ⟨ttl, old, hc, hold, heq⟩
    · exact h.texts k body e hold
    · obtain ⟨rfl, -⟩ := setex_of_command hc
      exact p.isEntry
    · cases hcontent
    · obtain ⟨content, expires⟩ := old
      cases heq
      exact h.texts k body expires hold
  members k ms e hslot m hm := by
    rcases slots_exec hslot with hold | ⟨ttl, _, hc, heq⟩ | ⟨m', ms', hc, hcontent, hms⟩ |
      ⟨ttl, old, hc, hold, heq⟩
    · exact h.members k ms e hold m hm
    · cases heq
    · cases hcontent
      rcases hms m hm with rfl | ⟨old, expires, hold, hmem⟩
      · obtain ⟨-, rfl⟩ := sadd_of_command hc
        exact p.isEntry
      · exact h.members k old expires hold m hmem
    · obtain ⟨content, expires⟩ := old
      cases heq
      exact h.members k ms expires hold m hm

theorem Tidy.del (h : Tidy server) (keys : List String) : Tidy (server.exec (.del keys)) where
  texts k body e hslot := h.texts k body e (slots_of_del hslot)
  members k ms e hslot := h.members k ms e (slots_of_del hslot)

theorem Tidy.smembers (h : Tidy server) {key k : String} (hk : k ∈ server.smembers key) :
    IsEntry k := by
  unfold Server.smembers at hk
  split at hk
  · next ms e hfind => exact h.members key ms e (find_eq_some.mp hfind).1 k hk
  · cases hk

theorem shaped_split {calls front back : List (Call F)} {c : Call F}
    (h : ∀ d ∈ calls, d.Shaped tx) (heq : calls = front ++ c :: back) :
    (∀ d ∈ front, d.Shaped tx) ∧ c.Shaped tx ∧ ∀ d ∈ back, d.Shaped tx := by
  rwa [heq, List.forall_mem_append, List.forall_mem_cons] at h

theorem Shaped.step (h : Shaped tx s) (hs : Step tx s ev s') : Shaped tx s' := by
  obtain ⟨hserver, hcalls⟩ := h
  cases hs with
  | look | lookLost => exact ⟨hserver, hcalls⟩
  | put p _ hid hfits =>
    refine ⟨hserver, List.forall_mem_append.mpr ⟨hcalls, ?_⟩⟩
    exact List.forall_mem_singleton.mpr ⟨hid, hfits⟩
  | send p stage heq =>
    obtain ⟨hfront, hput, hback⟩ := shaped_split hcalls heq
    refine ⟨hserver.exec, List.forall_mem_append.mpr ⟨List.forall_mem_append.mpr ⟨hfront, ?_⟩,
      hback⟩⟩
    cases stage with
    | setex => exact List.forall_mem_singleton.mpr hput
    | sadd => exact List.forall_mem_singleton.mpr hput
    | expire => rintro _ ⟨⟩
  | cut _ _ heq | readNone _ heq _ | readLost _ heq | clearLost _ heq =>
    obtain ⟨hfront, -, hback⟩ := shaped_split hcalls heq
    exact ⟨hserver, List.forall_mem_append.mpr ⟨hfront, hback⟩⟩
  | report => exact ⟨hserver, List.forall_mem_append.mpr ⟨hcalls, by simp [Call.Shaped]⟩⟩
  | read source key keys heq hkeys =>
    obtain ⟨hfront, -, hback⟩ := shaped_split hcalls heq
    have hread : ∀ k ∈ key :: keys, IsEntry k := fun k hk => hserver.smembers (hkeys ▸ hk)
    exact ⟨hserver, List.forall_mem_append.mpr ⟨hfront, List.forall_mem_cons.mpr ⟨hread, hback⟩⟩⟩
  | delete source keys heq =>
    obtain ⟨hfront, -, hback⟩ := shaped_split hcalls heq
    exact ⟨hserver.del _, List.forall_mem_append.mpr ⟨hfront,
      List.forall_mem_cons.mpr ⟨trivial, hback⟩⟩⟩
  | deleteLost source keys heq =>
    obtain ⟨hfront, -, hback⟩ := shaped_split hcalls heq
    exact ⟨hserver, List.forall_mem_append.mpr ⟨hfront,
      List.forall_mem_cons.mpr ⟨trivial, hback⟩⟩⟩
  | clear source heq =>
    obtain ⟨hfront, -, hback⟩ := shaped_split hcalls heq
    exact ⟨hserver.del _, List.forall_mem_append.mpr ⟨hfront, hback⟩⟩
  | tick n => exact ⟨⟨hserver.texts, hserver.members⟩, hcalls⟩

end

-- ---------------------------------------------------------------------------
-- What shows the answers of a decision
-- ---------------------------------------------------------------------------

/-- An answer of the decision is found under the key. -/
def Shows (tx : Texts F) (server : Server) (source k : String) (expires : Option Nat) : Prop :=
  ∃ body now e, server.find k = some ⟨.text body, expires⟩ ∧ entryOf tx body now = some e ∧
    e.source = source

/-- The index of the decision is as it was, and no more of its answers are found. -/
structure Kept (tx : Texts F) (source : String) (before after : Server) : Prop where
  index : after.slots (sourceKey source) = before.slots (sourceKey source)
  shows : ∀ k e, Shows tx after source k e → Shows tx before source k e
  now : before.now ≤ after.now

section
variable {server : Server} {source : String}

/-- A command of a put brings answers of its own decision alone. -/
theorem shows_exec (htx : tx.FloatsReadBack) (h : Tidy server) {p : Put F} {stage : Stage}
    (hid : '|' ∉ p.source.toList) (hfits : EntryFits tx p.entry) {k : String} {e : Option Nat}
    (hshows : Shows tx (server.exec (p.command stage)) source k e) :
    Shows tx server source k e ∨
      (p.source = source ∧ stage = .setex ∧ k = entryKey p.key ∧
        e = some (server.now + p.ttlSecs)) := by
  obtain ⟨body, now, entry, hfind, hentry, hsource⟩ := hshows
  obtain ⟨hslot, hlive⟩ := find_eq_some.mp hfind
  rw [now_exec] at hlive
  rcases slots_exec hslot with hold | ⟨ttl, _, hc, heq⟩ | ⟨m, ms, hc, hcontent, _⟩ |
    ⟨ttl, old, hc, hold, heq⟩
  · exact .inl ⟨body, now, entry, find_eq_some.mpr ⟨hold, hlive⟩, hentry, hsource⟩
  · cases heq
    obtain ⟨rfl, rfl, rfl, hstage⟩ := setex_of_command hc
    rw [entryOf_entryText hfits htx] at hentry
    obtain rfl := Option.some.inj hentry
    exact .inr ⟨hsource, hstage, rfl, rfl⟩
  · cases hcontent
  · obtain ⟨content, expires⟩ := old
    cases heq
    obtain ⟨rfl, -⟩ := expire_of_command hc
    exact absurd rfl ((h.texts _ _ _ hold).ne_sourceKey hid)

theorem kept_exec (htx : tx.FloatsReadBack) (h : Tidy server) {p : Put F} {stage : Stage}
    (hid : '|' ∉ p.source.toList) (hfits : EntryFits tx p.entry) (hsource : '|' ∉ source.toList)
    (hne : p.source ≠ source) : Kept tx source server (server.exec (p.command stage)) where
  index := slots_exec_ne (command_keys hsource hne)
  shows _ _ hshows := (shows_exec htx h hid hfits hshows).resolve_right fun hnew => hne hnew.1
  now := (now_exec ..).ge

theorem shows_del {keys : List String} {k : String} {e : Option Nat}
    (h : Shows tx (server.exec (.del keys)) source k e) :
    k ∉ keys ∧ Shows tx server source k e := by
  obtain ⟨body, now, entry, hfind, hentry⟩ := h
  rw [find_del] at hfind
  split at hfind
  · cases hfind
  · next hk => exact ⟨hk, body, now, entry, hfind, hentry⟩

theorem kept_del {keys : List String} (h : sourceKey source ∉ keys) :
    Kept tx source server (server.exec (.del keys)) where
  index := if_neg h
  shows _ _ hshows := (shows_del hshows).2
  now := (now_exec ..).ge

theorem kept_tick (n : Nat) : Kept tx source server (server.tick n) where
  index := rfl
  shows _ _ := by
    rintro ⟨body, now, entry, hfind, hentry⟩
    exact ⟨body, now, entry, find_tick hfind, hentry⟩
  now := Nat.le_add_right ..

theorem Kept.refl : Kept tx source server server := ⟨rfl, fun _ _ h => h, le_rfl⟩

end

-- ---------------------------------------------------------------------------
-- What becomes of a decision
-- ---------------------------------------------------------------------------

/-- The calls of a decision. -/
def State.own (s : State F) (source : String) : List (Call F) :=
  s.calls.filter fun c => c.source = source

/-- The answers of a decision that are found are under one key, and are gone by `t`. -/
def Confined (tx : Texts F) (server : Server) (source key : String) (t : Nat) : Prop :=
  ∀ k e, Shows tx server source k e → k = key ∧ ∃ t' ≤ t, e = some t'

/-- The decision's answers are not found, and none is on its way. -/
structure Gone (tx : Texts F) (s : State F) (source : String) : Prop where
  used : source ∈ s.used
  own : ∀ p stage, .putting p stage ∉ s.own source
  shows : ∀ k e, ¬ Shows tx s.server source k e

/-- Where a decision is of which no command was lost. -/
inductive Phase (tx : Texts F) (s : State F) (source : String) : Prop
  | unused : source ∉ s.used → s.own source = [] →
      s.server.slots (sourceKey source) = none → (∀ k e, ¬ Shows tx s.server source k e) →
      Phase tx s source
  | setting (p : Put F) : source ∈ s.used → s.own source = [.putting p .setex] →
      s.server.slots (sourceKey source) = none → (∀ k e, ¬ Shows tx s.server source k e) →
      Phase tx s source
  | adding (p : Put F) : source ∈ s.used → s.own source = [.putting p .sadd] →
      s.server.slots (sourceKey source) = none →
      Confined tx s.server source (entryKey p.key) (s.server.now + p.ttlSecs) →
      Phase tx s source
  | expiring (p : Put F) : source ∈ s.used → s.own source = [.putting p .expire] →
      s.server.slots (sourceKey source) = some ⟨.members [entryKey p.key], none⟩ →
      Confined tx s.server source (entryKey p.key) (s.server.now + p.ttlSecs) →
      Phase tx s source
  -- The index lives as long as the answer.
  | indexed (key : String) (t : Nat) : source ∈ s.used →
      (∀ c ∈ s.own source, c = .reading source ∨ c = .deleting source [key]) →
      s.server.slots (sourceKey source) = some ⟨.members [key], some t⟩ →
      Confined tx s.server source key t → Phase tx s source
  | gone : Gone tx s source → Phase tx s source

section
variable {s s' : State F} {source : String}

theorem Confined.kept {server server' : Server} {key : String} {t t' : Nat}
    (h : Confined tx server source key t) (hk : Kept tx source server server') (ht : t ≤ t') :
    Confined tx server' source key t' := by
  intro k e hshows
  obtain ⟨rfl, t'', hle, rfl⟩ := h k e (hk.shows k e hshows)
  exact ⟨rfl, t'', hle.trans ht, rfl⟩

theorem Gone.kept (h : Gone tx s source) (hk : Kept tx source s.server s'.server)
    (hown : s'.own source = s.own source) (hused : source ∈ s'.used) : Gone tx s' source where
  used := hused
  own p stage hmem := h.own p stage (hown ▸ hmem)
  shows k e hshows := h.shows k e (hk.shows k e hshows)

/-- A step of others leaves a decision where it is. -/
theorem Phase.kept (h : Phase tx s source) (hk : Kept tx source s.server s'.server)
    (hown : s'.own source = s.own source) (hused : source ∈ s'.used ↔ source ∈ s.used) :
    Phase tx s' source := by
  have hnone (hshows : ∀ k e, ¬ Shows tx s.server source k e) :
      ∀ k e, ¬ Shows tx s'.server source k e := fun k e h => hshows k e (hk.shows k e h)
  cases h with
  | unused hnew hown' hindex hshows =>
    exact .unused (mt hused.mp hnew) (hown.trans hown') (hk.index.trans hindex) (hnone hshows)
  | setting p hin hown' hindex hshows =>
    exact .setting p (hused.mpr hin) (hown.trans hown') (hk.index.trans hindex) (hnone hshows)
  | adding p hin hown' hindex hconfined =>
    exact .adding p (hused.mpr hin) (hown.trans hown') (hk.index.trans hindex)
      (hconfined.kept hk (Nat.add_le_add_right hk.now _))
  | expiring p hin hown' hindex hconfined =>
    exact .expiring p (hused.mpr hin) (hown.trans hown') (hk.index.trans hindex)
      (hconfined.kept hk (Nat.add_le_add_right hk.now _))
  | indexed key t hin hown' hindex hconfined =>
    exact .indexed key t (hused.mpr hin) (hown ▸ hown') (hk.index.trans hindex)
      (hconfined.kept hk le_rfl)
  | gone h => exact .gone (h.kept hk hown (hused.mpr h.used))

section
variable {front back new : List (Call F)} {c x : Call F}

omit [F64 F] in
theorem mem_own : c ∈ s.own source ↔ c ∈ s.calls ∧ c.source = source := by
  simp [State.own, List.mem_filter]

omit [F64 F] in
theorem own_foreign (h : s.calls = front ++ c :: back) (hc : c.source ≠ source)
    (hnew : ∀ d ∈ new, d.source ≠ source) (h' : s'.calls = front ++ new ++ back) :
    s'.own source = s.own source := by
  have hnil : new.filter (fun d => d.source = source) = [] :=
    List.filter_eq_nil_iff.mpr fun d hd => by simpa using hnew d hd
  simp [State.own, h, h', List.filter_append, hc, hnil]

omit [F64 F] in
/-- A call that is the only one of its decision. -/
theorem own_single (h : s.calls = front ++ c :: back) (hc : c.source = source)
    (hown : s.own source = [x]) :
    c = x ∧ ∀ new, (∀ d ∈ new, d.source = source) → ∀ s' : State F,
      s'.calls = front ++ new ++ back → s'.own source = new := by
  have hsplit : front.filter (fun d => d.source = source) ++
      c :: back.filter (fun d => d.source = source) = [x] := by
    rw [← hown, State.own, h, List.filter_append, List.filter_cons_of_pos (by simpa using hc)]
  obtain ⟨hfront, hcons⟩ : front.filter (fun d => d.source = source) = [] ∧
      c :: back.filter (fun d => d.source = source) = [x] := by
    rcases List.append_eq_singleton_iff.mp hsplit with hleft | ⟨_, hright⟩
    · exact hleft
    · cases hright
  obtain ⟨rfl, hback⟩ := List.cons.inj hcons
  refine ⟨rfl, fun new hnew s' h' => ?_⟩
  have hall : new.filter (fun d => d.source = source) = new :=
    List.filter_eq_self.mpr fun d hd => by simpa using hnew d hd
  rw [State.own, h', List.filter_append, List.filter_append, hfront, hback, hall]
  simp

end

end

-- ---------------------------------------------------------------------------
-- A decision that is gone
-- ---------------------------------------------------------------------------

section
variable {s s' : State F} {source : String} {ev : Event F} {p : Put F} {stage : Stage}

omit [F64 F] in
theorem mem_advanced {front back : List (Call F)} {c : Call F} {o : Option (Call F)}
    (h : c ∈ front ++ o.toList ++ back) : c ∈ front ∨ o = some c ∨ c ∈ back := by
  simpa [or_assoc] using h

/-- A put is new, or was there. -/
theorem putting_step (hs : Step tx s ev s') (h : .putting p stage ∈ s'.calls) :
    (∃ stage', .putting p stage' ∈ s.calls) ∨ p.source ∉ s.used := by
  cases hs with
  | look | lookLost | tick => exact .inl ⟨stage, h⟩
  | put q hnew =>
    rcases List.mem_append.mp h with hold | hlast
    · exact .inl ⟨stage, hold⟩
    · cases List.mem_singleton.mp hlast
      exact .inr hnew
  | send q stage' heq =>
    rcases mem_advanced h with hfront | hnext | hback
    · exact .inl ⟨stage, by simp [heq, hfront]⟩
    · obtain ⟨next, -, heq'⟩ := Option.map_eq_some_iff.mp hnext
      cases heq'
      exact .inl ⟨stage', by simp [heq]⟩
    · exact .inl ⟨stage, by simp [heq, hback]⟩
  | report =>
    refine .inl ⟨stage, ?_⟩
    simpa using h
  | cut _ _ heq | readNone _ heq | readLost _ heq | read _ _ _ heq | delete _ _ heq
  | deleteLost _ _ heq | clear _ heq | clearLost _ heq =>
    refine .inl ⟨stage, ?_⟩
    simp only [heq, List.mem_append, List.mem_cons, reduceCtorEq, false_or] at h ⊢
    tauto

/-- An answer that is found has just been put, or was found. -/
theorem shows_step (htx : tx.FloatsReadBack) (hshape : Shaped tx s) (hs : Step tx s ev s')
    {k : String} {e : Option Nat} (h : Shows tx s'.server source k e) :
    Shows tx s.server source k e ∨ ∃ p, .putting p .setex ∈ s.calls ∧ p.source = source ∧
      k = entryKey p.key ∧ e = some (s.server.now + p.ttlSecs) := by
  cases hs with
  | look | lookLost | put | cut | report | readNone | read | readLost | deleteLost | clearLost =>
    exact .inl h
  | send p stage heq =>
    have hmem : .putting p stage ∈ s.calls := by simp [heq]
    obtain ⟨hid, hfits⟩ := hshape.calls _ hmem
    refine (shows_exec htx hshape.server hid hfits h).imp_right ?_
    rintro ⟨hsource, rfl, hk, he⟩
    exact ⟨p, hmem, hsource, hk, he⟩
  | delete | clear => exact .inl (shows_del h).2
  | tick n => exact .inl ((kept_tick n).shows k e h)

theorem used_step (hs : Step tx s ev s') (h : source ∈ s.used) : source ∈ s'.used := by
  cases hs with
  | put | report => exact List.mem_cons_of_mem _ h
  | _ => exact h

theorem Gone.step (htx : tx.FloatsReadBack) (hshape : Shaped tx s) (h : Gone tx s source)
    (hs : Step tx s ev s') : Gone tx s' source where
  used := used_step hs h.used
  own p stage hmem := by
    obtain ⟨hcall, hsource⟩ : .putting p stage ∈ s'.calls ∧ p.source = source := mem_own.mp hmem
    rcases putting_step hs hcall with ⟨stage', hold⟩ | hnew
    · exact h.own p stage' (mem_own.mpr ⟨hold, hsource⟩)
    · exact hnew (hsource ▸ h.used)
  shows k e hshows := by
    rcases shows_step htx hshape hs hshows with hold | ⟨p, hput, hsource, -⟩
    · exact h.shows k e hold
    · exact h.own p .setex (mem_own.mpr ⟨hput, hsource⟩)

end

-- ---------------------------------------------------------------------------
-- A decision of which no command is lost
-- ---------------------------------------------------------------------------

section
variable {s s' : State F} {source : String} {front back : List (Call F)}

theorem Phase.own_reading (h : Phase tx s source) (hmem : .reading source ∈ s.own source) :
    Gone tx s source ∨ ∃ key t, source ∈ s.used ∧
      (∀ c ∈ s.own source, c = .reading source ∨ c = .deleting source [key]) ∧
      s.server.slots (sourceKey source) = some ⟨.members [key], some t⟩ ∧
      Confined tx s.server source key t := by
  cases h with
  | unused _ hown => simp [hown] at hmem
  | setting _ _ hown | adding _ _ hown | expiring _ _ hown => simp [hown] at hmem
  | indexed key t hin hown hindex hconfined => exact .inr ⟨key, t, hin, hown, hindex, hconfined⟩
  | gone h => exact .inl h

/-- The put of a decision goes on. -/
theorem Phase.send (htx : tx.FloatsReadBack) (hshape : Shaped tx s) {p : Put F} {stage : Stage}
    (h : Phase tx s p.source) (heq : s.calls = front ++ .putting p stage :: back)
    (hcalls : s'.calls = front ++ (stage.next.map (.putting p)).toList ++ back)
    (hserver : s'.server = s.server.exec (p.command stage)) (hused : s'.used = s.used) :
    Phase tx s' p.source := by
  have hmem : .putting p stage ∈ s.calls := by simp [heq]
  have hown : .putting p stage ∈ s.own p.source := mem_own.mpr ⟨hmem, rfl⟩
  obtain ⟨hid, hfits⟩ := hshape.calls _ hmem
  have hnow : s'.server.now = s.server.now := by rw [hserver, now_exec]
  have hshows {k : String} {e : Option Nat} (hafter : Shows tx s'.server p.source k e) :
      Shows tx s.server p.source k e ∨ (stage = .setex ∧ k = entryKey p.key ∧
        e = some (s.server.now + p.ttlSecs)) :=
    (shows_exec htx hshape.server hid hfits (hserver ▸ hafter)).imp_right And.right
  cases h with
  | unused _ hnone => simp [hnone] at hown
  | setting q hin hone hindex hnone =>
    obtain ⟨hcall, hnext⟩ := own_single heq rfl hone
    cases hcall
    refine .adding p (hused ▸ hin) (hnext [.putting p .sadd] (by simp) s' hcalls) ?_ ?_
    · rw [hserver, slots_exec_ne (by simpa [Put.command, Command.keys] using
        (p.isEntry.ne_sourceKey hid).symm), hindex]
    · intro k e hafter
      rcases hshows hafter with hbefore | ⟨-, rfl, rfl⟩
      · exact absurd hbefore (hnone k e)
      · exact ⟨rfl, _, le_of_eq (by rw [hnow]), rfl⟩
  | adding q hin hone hindex hconfined =>
    obtain ⟨hcall, hnext⟩ := own_single heq rfl hone
    cases hcall
    have hfind : s.server.find (sourceKey p.source) = none := by rw [Server.find, hindex]; rfl
    refine .expiring p (hused ▸ hin) (hnext [.putting p .expire] (by simp) s' hcalls)
      ?_ ?_
    · rw [hserver, Put.command, exec_sadd_none hfind, slots_set_self]
    · intro k e hafter
      rcases hshows hafter with hbefore | ⟨hstage, -⟩
      · rw [hnow]
        exact hconfined k e hbefore
      · cases hstage
  | expiring q hin hone hindex hconfined =>
    obtain ⟨hcall, hnext⟩ := own_single heq rfl hone
    cases hcall
    have hfind : s.server.find (sourceKey p.source) = some ⟨.members [entryKey p.key], none⟩ :=
      find_eq_some.mpr ⟨hindex, rfl⟩
    refine .indexed (entryKey p.key) (s.server.now + p.ttlSecs) (hused ▸ hin) ?_ ?_ ?_
    · have hempty : s'.own p.source = [] := hnext [] (by simp) s' hcalls
      simp [hempty]
    · rw [hserver, Put.command, exec_expire_some hfind, slots_set_self]
    · intro k e hafter
      rcases hshows hafter with hbefore | ⟨hstage, -⟩
      · exact hconfined k e hbefore
      · cases hstage
  | indexed key t _ hall => rcases hall _ hown with hcall | hcall <;> cases hcall
  | gone h => exact absurd hown (h.own p stage)

/-- A retraction that finds no index finds no answer either. -/
theorem Phase.readNone (h : Phase tx s source) (heq : s.calls = front ++ .reading source :: back)
    (hkeys : s.server.smembers (sourceKey source) = []) :
    Gone tx { s with calls := front ++ back } source := by
  have hmem : .reading source ∈ s.own source := mem_own.mpr ⟨by simp [heq], rfl⟩
  have hsub {c : Call F} (hc : c ∈ ({ s with calls := front ++ back } : State F).own source) :
      c ∈ s.own source := by
    obtain ⟨hcall, hsource⟩ := mem_own.mp hc
    have hold : c ∈ front ++ .reading source :: back :=
      ((List.sublist_cons_self _ back).append_left front).subset hcall
    exact mem_own.mpr ⟨heq ▸ hold, hsource⟩
  rcases h.own_reading hmem with hgone | ⟨key, t, hin, hall, hindex, hconfined⟩
  · exact ⟨hgone.used, fun p stage hc => hgone.own p stage (hsub hc), hgone.shows⟩
  · refine ⟨hin, fun p stage hc => ?_, fun k e hshows => ?_⟩
    · rcases hall _ (hsub hc) with hcall | hcall <;> cases hcall
    · obtain ⟨-, t', hle, rfl⟩ := hconfined k e hshows
      have hlive : ¬ s.server.now < t := by
        intro hlt
        have hfind := find_eq_some.mpr ⟨hindex, decide_eq_true hlt⟩
        simp [Server.smembers, hfind] at hkeys
      obtain ⟨_, _, _, hfind, -⟩ := hshows
      have hlt : s.server.now < t' := of_decide_eq_true (find_eq_some.mp hfind).2
      exact hlive (hlt.trans_le hle)

/-- A retraction deletes the key that the index has. -/
theorem Phase.delete {keys : List String} (h : Phase tx s source)
    (heq : s.calls = front ++ .deleting source keys :: back) :
    Gone tx { s with
      server := s.server.exec (.del keys), calls := front ++ .clearing source :: back } source := by
  have hmem : .deleting source keys ∈ s.own source := mem_own.mpr ⟨by simp [heq], rfl⟩
  have hputting {p : Put F} {stage : Stage} (hc : .putting p stage ∈ ({ s with
      server := s.server.exec (.del keys), calls := front ++ .clearing source :: back } :
        State F).own source) : .putting p stage ∈ s.own source := by
    obtain ⟨hcall, hsource⟩ := mem_own.mp hc
    refine mem_own.mpr ⟨?_, hsource⟩
    simp only [heq, List.mem_append, List.mem_cons, reduceCtorEq, false_or] at hcall ⊢
    exact hcall
  cases h with
  | unused _ hown | setting _ _ hown | adding _ _ hown | expiring _ _ hown => simp [hown] at hmem
  | indexed key t hin hall hindex hconfined =>
    refine ⟨hin, fun p stage hc => ?_, fun k e hshows => ?_⟩
    · rcases hall _ (hputting hc) with hcall | hcall <;> cases hcall
    · obtain ⟨hk, hbefore⟩ := shows_del hshows
      rcases hall _ hmem with hcall | hcall
      · cases hcall
      · cases hcall
        exact hk (List.mem_singleton.mpr (hconfined k e hbefore).1)
  | gone h =>
    exact ⟨h.used, fun p stage hc => h.own p stage (hputting hc), fun k e hshows =>
      h.shows k e (shows_del hshows).2⟩

theorem Phase.read {key : String} {keys : List String} (h : Phase tx s source)
    (hgone : ¬ Gone tx s source) (heq : s.calls = front ++ .reading source :: back)
    (hkeys : s.server.smembers (sourceKey source) = key :: keys) :
    Phase tx { s with calls := front ++ .deleting source (key :: keys) :: back } source := by
  have hmem : .reading source ∈ s.own source := mem_own.mpr ⟨by simp [heq], rfl⟩
  obtain ⟨key', t, hin, hall, hindex, hconfined⟩ := (h.own_reading hmem).resolve_left hgone
  have hread : [key'] = key :: keys := by
    unfold Server.smembers at hkeys
    split at hkeys
    · next ms e hfind =>
      have hslot := (find_eq_some.mp hfind).1
      rw [hindex] at hslot
      cases hslot
      exact hkeys
    · cases hkeys
  rw [← hread]
  refine .indexed key' t hin (fun c hc => ?_) hindex hconfined
  obtain ⟨hcall, hsource⟩ := mem_own.mp hc
  rcases List.mem_append.mp hcall with hfront | hrest
  · exact hall c (mem_own.mpr ⟨by simp [heq, hfront], hsource⟩)
  · rcases List.mem_cons.mp hrest with rfl | hback
    · exact .inr rfl
    · exact hall c (mem_own.mpr ⟨by simp [heq, hback], hsource⟩)

theorem Phase.put {p : Put F} (h : Phase tx s p.source) (hnew : p.source ∉ s.used) :
    Phase tx { s with calls := s.calls ++ [.putting p .setex], used := p.source :: s.used }
      p.source := by
  cases h with
  | unused _ hown hindex hshows =>
    refine .setting p List.mem_cons_self ?_ hindex hshows
    rw [State.own, List.filter_append, show s.calls.filter _ = [] from hown]
    simp
  | setting _ hin | adding _ hin | expiring _ hin | indexed _ _ hin => exact absurd hin hnew
  | gone h => exact absurd h.used hnew

theorem Phase.report (h : Phase tx s source)
    (hover : ∀ p stage, .putting p stage ∈ s.calls → p.source ≠ source)
    (hgone : ¬ Gone tx s source) :
    Phase tx { s with calls := s.calls ++ [.reading source], used := source :: s.used } source := by
  have hnone {p : Put F} {stage : Stage} (hown : s.own source = [.putting p stage]) : False := by
    have hmem : .putting p stage ∈ s.own source := by simp [hown]
    obtain ⟨hcall, hsource⟩ := mem_own.mp hmem
    exact hover p stage hcall hsource
  cases h with
  | unused _ _ _ hshows =>
    -- What was never put is not put any more.
    refine .gone ⟨List.mem_cons_self, fun p stage hmem => ?_, hshows⟩
    obtain ⟨hcall, hsource⟩ := mem_own.mp hmem
    exact hover p stage (by simpa using hcall) hsource
  | setting _ _ hown | adding _ _ hown | expiring _ _ hown => exact (hnone hown).elim
  | indexed key t _ hall hindex hconfined =>
    refine .indexed key t List.mem_cons_self (fun c hc => ?_) hindex hconfined
    obtain ⟨hcall, hsource⟩ := mem_own.mp hc
    rcases List.mem_append.mp hcall with hold | hlast
    · exact hall c (mem_own.mpr ⟨hold, hsource⟩)
    · exact .inl (List.mem_singleton.mp hlast)
  | gone h => exact absurd h hgone

/-- While it is not gone, no index of it is cleared. -/
theorem Phase.clearing (h : Phase tx s source) (hmem : .clearing source ∈ s.own source) :
    Gone tx s source := by
  cases h with
  | unused _ hown | setting _ _ hown | adding _ _ hown | expiring _ _ hown => simp [hown] at hmem
  | indexed _ _ _ hall => rcases hall _ hmem with hcall | hcall <;> cases hcall
  | gone h => exact h

variable {ev : Event F}

theorem Phase.step (htx : tx.FloatsReadBack) (hshape : Shaped tx s) (hid : '|' ∉ source.toList)
    (h : Phase tx s source) (hs : Step tx s ev s') (hlost : ev ≠ .lost source) :
    Phase tx s' source := by
  by_cases hgone : Gone tx s source
  · exact .gone (hgone.step htx hshape hs)
  -- Whatever a call of another decision does, this one stays where it is.
  have hforeign {front back : List (Call F)} {c : Call F} {server : Server}
      (new : List (Call F)) (heq : s.calls = front ++ c :: back) (hc : c.source ≠ source)
      (hnew : ∀ d ∈ new, d.source ≠ source) (hk : Kept tx source s.server server) :
      Phase tx { s with server, calls := front ++ new ++ back } source :=
    h.kept hk (own_foreign heq hc hnew rfl) Iff.rfl
  cases hs with
  | look | lookLost => exact h
  | put p hnew =>
    by_cases hsource : p.source = source
    · subst hsource
      exact h.put hnew
    · refine h.kept .refl ?_ ?_
      · simp [State.own, List.filter_append, hsource]
      · simp [Ne.symm hsource]
  | send p stage heq =>
    by_cases hsource : p.source = source
    · subst hsource
      exact h.send htx hshape heq rfl rfl rfl
    · obtain ⟨hput, hfits⟩ := hshape.calls _ (by simp [heq] : .putting p stage ∈ s.calls)
      refine hforeign _ heq hsource ?_ (kept_exec htx hshape.server hput hfits hid hsource)
      intro d hd
      obtain ⟨next, -, rfl⟩ := Option.map_eq_some_iff.mp (Option.mem_toList.mp hd)
      exact hsource
  | cut p stage heq =>
    have hsource : p.source ≠ source := fun hsource => hlost (by rw [hsource])
    simpa using hforeign [] heq hsource (by simp) .refl
  | report other hover =>
    by_cases hsource : other = source
    · subst hsource
      exact h.report hover hgone
    · refine h.kept .refl ?_ ?_
      · simp [State.own, List.filter_append, hsource]
      · simp [Ne.symm hsource]
  | readNone other heq hkeys =>
    by_cases hsource : other = source
    · subst hsource
      exact .gone (h.readNone heq hkeys)
    · simpa using hforeign [] heq hsource (by simp) .refl
  | read other key keys heq hkeys =>
    by_cases hsource : other = source
    · subst hsource
      exact h.read hgone heq hkeys
    · simpa using hforeign [.deleting other (key :: keys)] heq hsource (by simpa using hsource)
        .refl
  | readLost other heq | clearLost other heq =>
    have hsource : other ≠ source := fun hsource => hlost (by rw [hsource])
    simpa using hforeign [] heq hsource (by simp) .refl
  | delete other keys heq =>
    by_cases hsource : other = source
    · subst hsource
      exact .gone (h.delete heq)
    · have hentries := hshape.calls _ (by simp [heq] : .deleting other keys ∈ s.calls)
      have hkeys : sourceKey source ∉ keys := fun hmem => (hentries _ hmem).ne_sourceKey hid rfl
      simpa using hforeign [.clearing other] heq hsource (by simpa using hsource)
        (kept_del hkeys)
  | deleteLost other keys heq =>
    have hsource : other ≠ source := fun hsource => hlost (by rw [hsource])
    simpa using hforeign [.clearing other] heq hsource (by simpa using hsource) .refl
  | clear other heq =>
    by_cases hsource : other = source
    · subst hsource
      exact absurd (h.clearing (mem_own.mpr ⟨by simp [heq], rfl⟩)) hgone
    · have hkey : sourceKey source ∉ [sourceKey other] := fun hmem =>
        hsource (sourceKey_injective (List.mem_singleton.mp hmem)).symm
      simpa using hforeign [] heq hsource (by simp) (kept_del hkey)
  | tick n => exact h.kept (kept_tick n) rfl Iff.rfl

end

-- ---------------------------------------------------------------------------
-- Runs
-- ---------------------------------------------------------------------------

section
variable {s s' : State F} {source : String} {events earlier later : List (Event F)}

theorem Run.split (h : Run tx s (earlier ++ later) s') :
    ∃ middle, Run tx s earlier middle ∧ Run tx middle later s' := by
  induction earlier generalizing s with
  | nil => exact ⟨s, .nil, h⟩
  | cons ev earlier ih =>
    cases h with
    | cons hstep hrest =>
      obtain ⟨middle, hfront, hback⟩ := ih hrest
      exact ⟨middle, .cons hstep hfront, hback⟩

theorem Run.shaped (h : Run tx s events s') (hshape : Shaped tx s) : Shaped tx s' := by
  induction h with
  | nil => exact hshape
  | cons hstep _ ih => exact ih (hshape.step hstep)

theorem State.Fresh.shaped (h : s.Fresh) : Shaped tx s where
  server := ⟨fun k _ _ hslot => by simp [h.server] at hslot, fun k _ _ hslot => by
    simp [h.server] at hslot⟩
  calls := by simp [h.calls]

theorem State.Fresh.phase (h : s.Fresh) : Phase tx s source := by
  refine .unused (by simp [h.used]) (by simp [State.own, h.calls]) (h.server _) ?_
  rintro k e ⟨_, _, _, hfind, -⟩
  have hslot := (find_eq_some.mp hfind).1
  simp [h.server] at hslot

theorem Run.phase (htx : tx.FloatsReadBack) (h : Run tx s events s') (hshape : Shaped tx s)
    (hphase : Phase tx s source) (hid : '|' ∉ source.toList) (hlost : .lost source ∉ events) :
    Phase tx s' source := by
  induction h with
  | nil => exact hphase
  | cons hstep _ ih =>
    simp only [List.mem_cons, not_or] at hlost
    exact ih (hshape.step hstep) (hphase.step htx hshape hid hstep (Ne.symm hlost.1)) hlost.2

theorem Phase.retracted (h : Phase tx s source) (hs : Step tx s (.retracted source) s') :
    Gone tx s' source := by
  cases hs with
  | readNone source heq hkeys => exact h.readNone heq hkeys
  | delete source keys heq => exact h.delete heq

theorem Gone.look (h : Gone tx s source) {key : String} {now : Instant} {e : Entry F}
    (hlook : lookup tx s.server key now = some e) : e.source ≠ source := by
  obtain ⟨body, hget, hentry⟩ := Option.bind_eq_some_iff.mp hlook
  obtain ⟨expires, hfind⟩ := get_eq_some.mp hget
  exact fun hsource => h.shows _ _ ⟨body, now, e, hfind, hentry, hsource⟩

/-- What is gone stays gone, even if commands are lost from then on. -/
theorem Run.gone (htx : tx.FloatsReadBack) (h : Run tx s events s') (hshape : Shaped tx s)
    (hgone : Gone tx s source) {key : String} {e : Entry F} {time : Nat}
    (hlook : .look key (some e) time ∈ events) : e.source ≠ source := by
  induction h with
  | nil => cases hlook
  | cons hstep _ ih =>
    rcases List.mem_cons.mp hlook with heq | hrest
    · generalize hentry : some e = found at heq
      subst heq
      cases hstep with
      | look now => exact hgone.look hentry.symm
      | lookLost => cases hentry
    · exact ih (hshape.step hstep) (hgone.step htx hshape hstep) hrest

end

-- ---------------------------------------------------------------------------
-- What is looked up
-- ---------------------------------------------------------------------------

/-- The answer was written at that time, and nothing was written under its key since. -/
structure Written (events : List (Event F)) (p : Put F) (time : Nat) : Prop where
  last : ∃ before after, events = before ++ .sent p .setex time :: after ∧
    ∀ q time', .sent q .setex time' ∈ after → q.key = p.key → q.ttlSecs = 0

/-- Every text is an answer, and goes when its time to live is over. -/
def Sourced (tx : Texts F) (events : List (Event F)) (server : Server) : Prop :=
  ∀ k body e, server.slots k = some ⟨.text body, e⟩ → ∃ p time, Written events p time ∧
    k = entryKey p.key ∧ body = entryText p.entry ∧ e = some (time + p.ttlSecs) ∧
      EntryFits tx p.entry

section
variable {s s' : State F} {events earlier later : List (Event F)} {ev : Event F}

omit [F64 F] in
theorem Written.append {p : Put F} {time : Nat} (h : Written events p time)
    (hev : ∀ q time', ev = .sent q .setex time' → q.key = p.key → q.ttlSecs = 0) :
    Written (events ++ [ev]) p time := by
  obtain ⟨before, after, rfl, hafter⟩ := h.last
  refine ⟨before, after ++ [ev], by simp, fun q time' hmem => ?_⟩
  rcases List.mem_append.mp hmem with hold | hlast
  · exact hafter q time' hold
  · exact hev q time' (List.mem_singleton.mp hlast).symm

theorem Sourced.step (hshape : Shaped tx s) (h : Sourced tx events s.server)
    (hs : Step tx s ev s') : Sourced tx (events ++ [ev]) s'.server := by
  -- A step that writes no answer leaves the texts there were.
  have hkept {server : Server} (hev : ∀ q time', ev ≠ .sent q .setex time')
      (hslots : ∀ k slot, server.slots k = some slot → s.server.slots k = some slot) :
      Sourced tx (events ++ [ev]) server := by
    intro k body e hslot
    obtain ⟨p, time, hwritten, hrest⟩ := h k body e (hslots _ _ hslot)
    exact ⟨p, time, hwritten.append fun q time' heq => absurd heq (hev q time'), hrest⟩
  cases hs with
  | look | lookLost | put | cut | report | readNone | read | readLost | deleteLost | clearLost
  | tick =>
    exact hkept (by simp) fun _ _ hslot => hslot
  | delete | clear => exact hkept (by simp) fun _ _ => slots_of_del
  | send q stage heq =>
    obtain ⟨hid, hfits⟩ := hshape.calls _ (by simp [heq] : .putting q stage ∈ s.calls)
    intro k body e hslot
    by_cases hwrites : stage = .setex ∧ k = entryKey q.key ∧ q.ttlSecs ≠ 0
    · obtain ⟨rfl, rfl, httl⟩ := hwrites
      rw [Put.command, Server.exec, if_neg httl, slots_set_self, Option.some.injEq, Slot.mk.injEq,
        Content.text.injEq] at hslot
      obtain ⟨rfl, rfl⟩ := hslot
      exact ⟨q, s.server.now, ⟨events, [], rfl, by simp⟩, rfl, rfl, rfl, hfits⟩
    · have hold : s.server.slots k = some ⟨.text body, e⟩ := by
        rcases slots_exec hslot with hold | ⟨ttl, _, hc, heq'⟩ | ⟨_, _, _, hcontent, _⟩ |
          ⟨_, old, hc, hold, heq'⟩
        · exact hold
        · obtain ⟨rfl, rfl, rfl, rfl⟩ := setex_of_command hc
          have hzero : q.ttlSecs = 0 := by simpa using hwrites
          rwa [Put.command, Server.exec, if_pos hzero] at hslot
        · cases hcontent
        · obtain ⟨content, expires⟩ := old
          cases heq'
          obtain ⟨rfl, -⟩ := expire_of_command hc
          exact absurd rfl ((hshape.server.texts _ _ _ hold).ne_sourceKey hid)
      obtain ⟨p, time, hwritten, rfl, hrest⟩ := h k body e hold
      refine ⟨p, time, hwritten.append fun q' time' hev hkey => ?_, rfl, hrest⟩
      cases hev
      simpa [hkey] using hwrites

theorem Run.sourced (h : Run tx s later s') (hshape : Shaped tx s)
    (hsourced : Sourced tx events s.server) : Sourced tx (events ++ later) s'.server := by
  induction h generalizing events with
  | nil => simpa using hsourced
  | cons hstep _ ih =>
    have hnext := ih (hshape.step hstep) (hsourced.step hshape hstep)
    simpa using hnext

end

-- ---------------------------------------------------------------------------
-- A run with two decisions
-- ---------------------------------------------------------------------------

def samplePut (source : String) : Put ℚ where
  tenant := "t"
  promptHash := "h"
  ladder := ["m"]
  entry := ⟨⟨"m", "ok", 1, 0, 0, 1, .null⟩, source, 0, 0⟩
  ttlSecs := 60

def sampleStart : State ℚ := ⟨⟨0, fun _ => none⟩, [], []⟩

theorem sampleStart_fresh : sampleStart.Fresh := ⟨fun _ => rfl, rfl, rfl⟩

theorem samplePut_fits (source : String) :
    EntryFits ReceiptExport.integralTexts (samplePut source).entry where
  inTokens := show 1 < 2 ^ 64 by decide
  cacheWriteTokens := show 0 < 2 ^ 64 by decide
  cacheReadTokens := show 0 < 2 ^ 64 by decide
  outTokens := show 1 < 2 ^ 64 by decide
  raw := Json.document_null
  source := rfl
  originalCostUsd := ReceiptExport.finite_zero

def sampleEarlier : List (Event ℚ) :=
  [.put (samplePut "a"), .sent (samplePut "a") .setex 0, .sent (samplePut "a") .sadd 0,
    .sent (samplePut "a") .expire 0, .report "a", .read "a"]

def sampleLater : List (Event ℚ) :=
  [.put (samplePut "b"), .sent (samplePut "b") .setex 0,
    .look (samplePut "b").key (some (samplePut "b").entry) 0]

theorem Step.hit {s : State F} {key : String} (now : Instant) {e : Entry F}
    (h : lookup tx s.server key now = some e) : Step tx s (.look key (some e) s.server.now) s :=
  h ▸ .look now

theorem sample_run :
    ∃ s', Run ReceiptExport.integralTexts sampleStart
      (sampleEarlier ++ .retracted "a" :: sampleLater) s' := by
  refine ⟨_, .cons (.put _ (by rintro ⟨⟩) (by decide) (samplePut_fits _)) <|
    .cons (.send _ .setex (show _ = [] ++ _ :: [] from rfl)) <|
    .cons (.send _ .sadd (show _ = [] ++ _ :: [] from rfl)) <|
    .cons (.send _ .expire (show _ = [] ++ _ :: [] from rfl)) <|
    .cons (.report "a" (by rintro p stage ⟨⟩)) <|
    .cons (.read "a" (entryKey (samplePut "a").key) [] (show _ = [] ++ _ :: [] from rfl)
      (by decide +kernel)) <|
    .cons (.delete "a" _ (show _ = [] ++ _ :: [] from rfl)) <|
    .cons (.put _ (by decide) (by decide) (samplePut_fits _)) <|
    .cons (.send _ .setex (show _ = [_] ++ _ :: [] from rfl)) <|
    .cons (.hit 0 (Option.bind_eq_some_iff.mpr ⟨_, get_setex (show 60 ≠ 0 by decide) _, ?_⟩)) .nil⟩
  exact entryOf_entryText (samplePut_fits "b") ReceiptExport.integralTexts_floatsReadBack 0

def sampleBefore : List (Event ℚ) := sampleEarlier ++ .retracted "a" :: sampleLater.take 2

end Firstpass.SharedCache
