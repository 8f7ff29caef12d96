import Firstpass.Proxy.WireReads

/-!
# The turns of a Gemini request

A Gemini body has one content per run of messages of one role. Its parts are
traced back to the blocks they come from, each with the blocks before it, so
that a result is seen to be named after its call. A message without a block
that is translated still gives a part, with what text it has.
-/

namespace Firstpass.WireBody

open Json
open ChatRequest (FromStr)
open Responses (strAt typeOf)

-- ---------------------------------------------------------------------------
-- Where parts come from
-- ---------------------------------------------------------------------------

def isToolUse (b : Value) : Bool := typeOf b = some "tool_use"

def isTranslated (b : Value) : Bool :=
  match typeOf b with
  | some "text" | some "tool_use" | some "tool_result" => true
  | some "image" => isBase64 b
  | _ => false

/-- A block with the blocks before it, or a message as a whole. -/
inductive Source
  | block (before : List Value) (b : Value)
  | message (m : ChatMessage)

def blockSources (before : List Value) : List Value → List Source
  | [] => []
  | b :: blocks =>
    (if isTranslated b then [.block before b] else []) ++ blockSources (before ++ [b]) blocks

def messageBlocks (m : ChatMessage) : List Value := m.content.asArray.getD []

/-- A message with nothing to translate is a source of its own. -/
def messageSources (before : List Value) (m : ChatMessage) : List Source :=
  match blockSources before (messageBlocks m) with
  | [] => [.message m]
  | found => found

/-- Only a message that is no array of blocks is a source of its own. -/
def plainSources (before : List Value) (m : ChatMessage) : List Source :=
  match m.content with
  | .array blocks => blockSources before blocks
  | _ => [.message m]

def sources (ofMessage : List Value → ChatMessage → List Source) (before : List Value) :
    List ChatMessage → List Source
  | [] => []
  | m :: messages => ofMessage before m ++ sources ofMessage (before ++ messageBlocks m) messages

/-- The names of the calls among the blocks, the last first. -/
def calls (before : List Value) : CallNames :=
  ((before.filter isToolUse).map fun b => (str "id" b, str "name" b)).reverse

def Source.image (fromStr : FromStr) : Source → Option Value
  | .block before b => (blockPart fromStr (calls before) b).1
  | .message m => some (textPart (textView m))

-- ---------------------------------------------------------------------------
-- Valid turns
-- ---------------------------------------------------------------------------

def isCall (p : Value) : Bool := (p.get "functionCall").isSome

/-- The same part, or a call without a signature that is given one. -/
inductive Signed : Value → Value → Prop
  | same (p : Value) : Signed p p
  | added (p : Value) : isCall p = true → p.get "thoughtSignature" = none →
      Signed p (p.setKey "thoughtSignature" (.string syntheticThoughtSignature))

/-- The last call before a result that has the result's id. -/
def LastCall (before : List Value) (r u : Value) : Prop :=
  ∃ front back, before = front ++ u :: back ∧ isToolUse u = true ∧
    str "id" u = str "tool_use_id" r ∧
    ∀ v ∈ back, isToolUse v = true → str "id" v ≠ str "tool_use_id" r

structure Source.Gives (fromStr : FromStr) (s : Source) (part : Value) : Prop where
  image : ∃ image, s.image fromStr = some image ∧ Signed image part
  named : ∀ before r u, s = .block before r → typeOf r = some "tool_result" →
    LastCall before r u →
    part.pointer ["functionResponse", "name"] = some (.string (str "name" u))

structure ValidTurns (fromStr : FromStr) (given : List Source) (contents : List Value) : Prop where
  alternate : contents.IsChain fun c c' => c.get "role" ≠ c'.get "role"
  nonempty : ∀ c ∈ contents, elements "parts" c ≠ []
  signed : ∀ c ∈ contents, strAt "role" c = some "model" →
    ∀ p ∈ (elements "parts" c).find? isCall, (p.get "thoughtSignature").isSome
  parts : List.Forall₂ (Source.Gives fromStr) given (contents.flatMap (elements "parts"))

-- ---------------------------------------------------------------------------
-- Blocks
-- ---------------------------------------------------------------------------

theorem calls_concat (before : List Value) (b : Value) : calls (before ++ [b]) =
    if isToolUse b then (str "id" b, str "name" b) :: calls before else calls before := by
  cases huse : isToolUse b <;> simp [calls, huse]

section
variable (fromStr : FromStr)

theorem blockPart_names (names : CallNames) (b : Value) : (blockPart fromStr names b).2 =
    if isToolUse b then (str "id" b, str "name" b) :: names else names := by
  unfold blockPart
  split <;> simp_all [isToolUse]

theorem blockPart_isSome (names : CallNames) (b : Value) :
    (blockPart fromStr names b).1.isSome = isTranslated b := by
  unfold blockPart
  split <;> simp_all [isTranslated]
  split_ifs <;> simp_all

theorem blockParts_sources (before blocks : List Value) :
    blockParts fromStr (calls before) blocks =
      ((blockSources before blocks).filterMap (Source.image fromStr),
        calls (before ++ blocks)) := by
  induction blocks generalizing before with
  | nil => simp [blockParts, blockSources]
  | cons b blocks ih =>
    have hsome := blockPart_isSome fromStr (calls before) b
    have hnames := blockPart_names fromStr (calls before) b
    rw [← calls_concat] at hnames
    simp only [blockParts, hnames, ih, blockSources, List.append_assoc, List.singleton_append,
      List.filterMap_append]
    cases hpart : (blockPart fromStr (calls before) b).1 with
    | none =>
      rw [hpart] at hsome
      simp [← hsome]
    | some part =>
      rw [hpart] at hsome
      simp [← hsome, Source.image, hpart]

theorem blockSources_image {before blocks : List Value} :
    ∀ s ∈ blockSources before blocks, (s.image fromStr).isSome = true := by
  induction blocks generalizing before with
  | nil => simp [blockSources]
  | cons b blocks ih =>
    simp only [blockSources, List.mem_append]
    rintro s (hs | hs)
    · split_ifs at hs with hb
      · obtain rfl := List.mem_singleton.mp hs
        exact (blockPart_isSome fromStr _ b).trans hb
      · cases hs
    · exact ih s hs

theorem messageSources_image {before : List Value} {m : ChatMessage} :
    ∀ s ∈ messageSources before m, (s.image fromStr).isSome = true := by
  unfold messageSources
  split
  · simp [Source.image]
  · exact blockSources_image fromStr

theorem sources_image {before : List Value} {messages : List ChatMessage} :
    ∀ s ∈ sources messageSources before messages, (s.image fromStr).isSome = true := by
  induction messages generalizing before with
  | nil => simp [sources]
  | cons m messages ih =>
    simp only [sources, List.mem_append]
    rintro s (hs | hs)
    · exact messageSources_image fromStr s hs
    · exact ih s hs

theorem filterMap_ne_nil {α β : Type} {f : α → Option β} {xs : List α} (hne : xs ≠ [])
    (hsome : ∀ x ∈ xs, (f x).isSome = true) : xs.filterMap f ≠ [] := by
  obtain ⟨x, hx⟩ := List.exists_mem_of_ne_nil xs hne
  obtain ⟨y, hy⟩ := Option.isSome_iff_exists.mp (hsome x hx)
  exact List.ne_nil_of_mem (List.mem_filterMap.mpr ⟨x, hx, hy⟩)

theorem messageParts_sources (before : List Value) (m : ChatMessage) :
    messageParts fromStr (calls before) m =
      ((messageSources before m).filterMap (Source.image fromStr),
        calls (before ++ messageBlocks m)) := by
  unfold messageParts
  rw [← messageBlocks, blockParts_sources]
  cases hfound : blockSources before (messageBlocks m) with
  | nil => simp [messageSources, hfound, Source.image]
  | cons s rest =>
    have hne : (s :: rest).filterMap (Source.image fromStr) ≠ [] :=
      filterMap_ne_nil (by simp) fun s hs => blockSources_image fromStr s (hfound ▸ hs)
    simp [messageSources, hfound, hne]

theorem messageParts_ne_nil (before : List Value) (m : ChatMessage) :
    (messageParts fromStr (calls before) m).1 ≠ [] := by
  rw [messageParts_sources]
  refine filterMap_ne_nil ?_ fun s hs => messageSources_image fromStr s hs
  unfold messageSources
  split
  · simp
  · assumption

end

-- ---------------------------------------------------------------------------
-- Turns
-- ---------------------------------------------------------------------------

/-- Turns as they are built: neighbours differ in role, and each has parts. -/
structure Built (contents : List Content) : Prop where
  alternate : contents.IsChain fun c c' => c.1 ≠ c'.1
  nonempty : ∀ c ∈ contents, c.2 ≠ []

theorem Built.push {contents : List Content} (h : Built contents) (role : String)
    {parts : List Value} (hne : parts ≠ []) : Built (pushTurn contents role parts) := by
  unfold pushTurn
  rcases List.eq_nil_or_concat contents with rfl | ⟨front, ⟨last, sofar⟩, rfl⟩
  · exact ⟨by simp, by simpa using hne⟩
  · rw [List.concat_eq_append] at h ⊢
    obtain ⟨halternate, hnonempty⟩ := h
    simp only [List.getLast?_concat, List.dropLast_concat]
    split_ifs with hrole
    · subst hrole
      have hfront : ∀ c ∈ front, c.2 ≠ [] := fun c hc => hnonempty c (by simp [hc])
      constructor
      · simpa [List.isChain_append] using halternate
      · simpa [or_imp, forall_and, hne] using hfront
    · constructor
      · simpa [List.isChain_append, hrole] using halternate
      · simpa [or_imp, forall_and, hne] using hnonempty

theorem parts_pushTurn (contents : List Content) (role : String) (parts : List Value) :
    (pushTurn contents role parts).flatMap Prod.snd = contents.flatMap Prod.snd ++ parts := by
  unfold pushTurn
  rcases List.eq_nil_or_concat contents with rfl | ⟨front, ⟨last, sofar⟩, rfl⟩
  · simp
  · simp only [List.concat_eq_append, List.getLast?_concat, List.dropLast_concat]
    split_ifs <;> simp

theorem built_contents (fromStr : FromStr) {contents : List Content} (h : Built contents)
    (before : List Value) (messages : List ChatMessage) :
    Built (geminiContents fromStr (calls before) contents messages) ∧
      (geminiContents fromStr (calls before) contents messages).flatMap Prod.snd =
        contents.flatMap Prod.snd ++
          (sources messageSources before messages).filterMap (Source.image fromStr) := by
  induction messages generalizing before contents with
  | nil => exact ⟨h, by simp [geminiContents, sources]⟩
  | cons m messages ih =>
    have hm := messageParts_sources fromStr before m
    have hne := messageParts_ne_nil fromStr before m
    rw [hm] at hne
    obtain ⟨hbuilt, hparts⟩ := ih (h.push (geminiRole m) hne) (before ++ messageBlocks m)
    rw [geminiContents, hm]
    refine ⟨hbuilt, ?_⟩
    rw [hparts, parts_pushTurn, sources, List.filterMap_append, List.append_assoc]

-- ---------------------------------------------------------------------------
-- Signatures
-- ---------------------------------------------------------------------------

theorem signed_signFirstCall (parts : List Value) :
    List.Forall₂ Signed parts (signFirstCall parts) := by
  induction parts with
  | nil => exact .nil
  | cons p parts ih =>
    rw [signFirstCall]
    split_ifs with hcall hunsigned
    · exact .cons (.added p hcall (Option.isNone_iff_eq_none.mp hunsigned))
        (List.forall₂_same.mpr fun p _ => .same p)
    · exact List.forall₂_same.mpr fun p _ => .same p
    · exact .cons (.same p) ih

theorem first_call_signed {parts : List Value} :
    ∀ p ∈ (signFirstCall parts).find? isCall, (p.get "thoughtSignature").isSome = true := by
  induction parts with
  | nil => simp [signFirstCall]
  | cons q parts ih =>
    rw [signFirstCall]
    split_ifs with hcall hunsigned
    · obtain ⟨call, hget⟩ := Option.isSome_iff_exists.mp hcall
      have hobject := isSome_asObject_of_get hget
      have hkept :
          isCall (q.setKey "thoughtSignature" (.string syntheticThoughtSignature)) = true := by
        rw [isCall, get_setKey_ne (by decide)]
        exact hcall
      simp [hkept, get_setKey hobject]
    · have hq : isCall q = true := hcall
      simpa [hq, Option.isSome_iff_ne_none] using hunsigned
    · have hq : isCall q = false := by simpa [isCall] using hcall
      simpa [hq] using ih

-- ---------------------------------------------------------------------------
-- Names
-- ---------------------------------------------------------------------------

theorem lookup_calls {before : List Value} (h : LastCall before r u) :
    (calls before).lookup (str "tool_use_id" r) = some (str "name" u) := by
  obtain ⟨front, back, rfl, huse, hid, hback⟩ := h
  induction back using List.reverseRecOn with
  | nil => simp [calls_concat, huse, hid]
  | append_singleton back v ih =>
    have hv := hback v (by simp)
    have hrest := ih fun w hw => hback w (by simp [hw])
    rw [← List.cons_append, ← List.append_assoc, calls_concat]
    split_ifs with hcall
    · rw [List.lookup_cons, beq_false_of_ne (hv hcall).symm]
      exact hrest
    · exact hrest

theorem signed_name {image part : Value} (h : Signed image part) :
    part.pointer ["functionResponse", "name"] = image.pointer ["functionResponse", "name"] := by
  cases h with
  | same => rfl
  | added _ _ =>
    rw [pointer_cons (by decide), pointer_cons (by decide), get_setKey_ne (by decide)]

section
variable (fromStr : FromStr)

/-- A result is named after the last call before it with its id. -/
theorem gives_of_image {s : Source} (himage : s.image fromStr = some image)
    (hsigned : Signed image part) : s.Gives fromStr part where
  image := ⟨image, himage, hsigned⟩
  named := by
    rintro before r u rfl hresult hlast
    rw [signed_name hsigned]
    obtain rfl : responsePart fromStr (calls before) r = image := by
      simpa [Source.image, blockPart, hresult] using himage
    simp [responsePart, lookup_calls hlast, Value.pointer]

theorem gives_filterMap {given : List Source}
    (hsome : ∀ s ∈ given, (s.image fromStr).isSome = true)
    (h : List.Forall₂ Signed (given.filterMap (Source.image fromStr)) parts) :
    List.Forall₂ (Source.Gives fromStr) given parts := by
  induction given generalizing parts with
  | nil =>
    cases h
    exact .nil
  | cons s given ih =>
    obtain ⟨hs, hgiven⟩ := List.forall_mem_cons.mp hsome
    obtain ⟨image, himage⟩ := Option.isSome_iff_exists.mp hs
    rw [List.filterMap_cons_some himage] at h
    cases h with
    | cons hsigned hrest => exact .cons (gives_of_image fromStr himage hsigned) (ih hgiven hrest)

-- ---------------------------------------------------------------------------
-- The body
-- ---------------------------------------------------------------------------

theorem signed_contentJson (c : Content) :
    List.Forall₂ Signed c.2 (elements "parts" (contentJson c)) := by
  show List.Forall₂ Signed c.2 (if c.1 = "model" then signFirstCall c.2 else c.2)
  split_ifs
  · exact signed_signFirstCall c.2
  · exact List.forall₂_same.mpr fun p _ => .same p

theorem signed_contents (contents : List Content) :
    List.Forall₂ Signed (contents.flatMap Prod.snd)
      ((contents.map contentJson).flatMap (elements "parts")) := by
  induction contents with
  | nil => exact .nil
  | cons c contents ih => exact List.rel_append (signed_contentJson c) ih

theorem role_contentJson (c : Content) : (contentJson c).get "role" = some (.string c.1) := rfl

end

def thoughtBlock : Value := .object [("thinking", .string "Hm."), ("type", .string "thinking")]

def thoughtRequest : ModelRequest where
  model := "gemini/flash"
  system := none
  messages := [⟨"assistant", .array [thoughtBlock]⟩]
  maxTokens := 1024
  tools := .null
  raw := .null
  cachePrefix := false

end Firstpass.WireBody
