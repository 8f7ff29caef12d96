import Firstpass.Proxy.PairedGrading
import Firstpass.Proxy.WireBody

/-!
# What a provider reads

The system text and the texts of the turns, in the fields of a body each dialect reads them
from, and what the edits of a body leave of them.
-/

namespace Firstpass.WireBody

open Json
open Inbound (ProviderKind)
open Responses (strAt typeOf)

-- ---------------------------------------------------------------------------
-- The fields
-- ---------------------------------------------------------------------------

/-- The text of a text block. -/
def blockText (b : Value) : Option String := if typeOf b = some "text" then strAt "text" b else none

def contentTexts : Value → List String
  | .string s => [s]
  | .array blocks => blocks.filterMap blockText
  | _ => []

/-- Something that is said, and whether the assistant says it. -/
abbrev Saying := Bool × String

def sayings (assistant : Bool) (texts : List String) : List Saying :=
  (texts.filter (· ≠ "")).map fun text => (assistant, text)

def turnSayings (m : Value) : List Saying :=
  sayings (strAt "role" m = some "assistant") (contentTexts ((m.get "content").getD .null))

def isSystemRole (m : Value) : Bool :=
  strAt "role" m = some "system" || strAt "role" m = some "developer"

def elements (key : String) (body : Value) : List Value :=
  ((body.get key).bind Value.asArray).getD []

def partTexts (v : Value) : List String := (elements "parts" v).filterMap (strAt "text")

def readSystem (body : Value) : ProviderKind → String
  | .openai =>
    String.join (((elements "messages" body).filter isSystemRole).flatMap fun m =>
      contentTexts ((m.get "content").getD .null))
  | .gemini => String.join (partTexts ((body.get "systemInstruction").getD .null))
  | _ => String.join (contentTexts ((body.get "system").getD .null))

def readTurns (body : Value) : ProviderKind → List Saying
  | .openai => ((elements "messages" body).filter (!isSystemRole ·)).flatMap turnSayings
  | .gemini => (elements "contents" body).flatMap fun c =>
      sayings (strAt "role" c = some "model") (partTexts c)
  | _ => (elements "messages" body).flatMap turnSayings

-- ---------------------------------------------------------------------------
-- Messages bodies of text
-- ---------------------------------------------------------------------------

def IsTextBlock (b : Value) : Prop := ∃ text, blockText b = some text

inductive IsText : Value → Prop
  | string (s : String) : IsText (.string s)
  | blocks (blocks : List Value) (h : ∀ b ∈ blocks, IsTextBlock b) : IsText (.array blocks)

/-- A turn of the user or the assistant, in text. -/
structure IsTurn (m : Value) : Prop where
  role : strAt "role" m = some "user" ∨ strAt "role" m = some "assistant"
  content : ∃ content, m.get "content" = some content ∧ IsText content

/-- A Messages body with its turns. -/
structure TextBody (json : Value) (turns : List Value) : Prop where
  messages : json.get "messages" = some (.array turns)
  turn : ∀ m ∈ turns, IsTurn m
  system : ∀ v, json.get "system" = some v → IsText v

def systemText (json : Value) : String :=
  String.join (contentTexts ((json.get "system").getD .null))

/-- The system is an array of blocks. -/
def SystemInBlocks (json : Value) : Prop := ∃ blocks, json.get "system" = some (.array blocks)

-- ---------------------------------------------------------------------------
-- Edits of a body
-- ---------------------------------------------------------------------------

/-- An edit that leaves a key alone. -/
def Keeps (key : String) (edit : Fields → Fields) : Prop :=
  ∀ body, (edit body).lookup key = body.lookup key

theorem keeps_mapAt {key other : String} (h : key ≠ other) (f : Value → Value) :
    Keeps key (mapAt other f) := by
  rintro body
  rw [mapAt]
  cases body.lookup other with
  | none => rfl
  | some v => exact lookup_btreeInsert_ne h _ _

theorem keeps_stripAt {key other : String} (h : key ≠ other) : Keeps key (stripAt other) := by
  rintro body
  rw [stripAt]
  split
  · exact lookup_btreeInsert_ne h _ _
  · rfl

theorem keeps_stripExtraContent {key : String} (h : key ≠ "messages") :
    Keeps key stripExtraContent := by
  rintro body
  rw [stripExtraContent]
  split
  · exact lookup_btreeInsert_ne h _ _
  · rfl

theorem keeps_spellEffort {key : String} (effort : Effort) (wire : Wire)
    (h : key ∉ "generationConfig" :: "temperature" :: "top_p" :: reasoningKeys) :
    Keeps key fun body => spellEffort effort body wire := by
  rintro body
  simp only [reasoningKeys, List.mem_cons, List.not_mem_nil, or_false, not_or] at h
  obtain ⟨hgeneration, htemperature, htop, hreasoning, hthinking, -⟩ := h
  cases wire with
  | openAi => exact lookup_btreeInsert_ne hreasoning _ _
  | anthropic =>
    simp only [spellEffort]
    split_ifs
    · rw [lookup_removeKey_ne htop, lookup_removeKey_ne htemperature,
        lookup_btreeInsert_ne hthinking]
    · rfl
  | gemini =>
    simp only [spellEffort]
    split
    · exact lookup_btreeInsert_ne hgeneration _ _
    · rfl

theorem keeps_normalizeReasoning {key : String} (wire : Wire)
    (h : key ∉ "generationConfig" :: "temperature" :: "top_p" :: reasoningKeys) :
    Keeps key fun body => normalizeReasoning body wire := by
  rintro body
  have hstripped : (reasoningKeys.foldl (fun fs k => removeKey k fs) body).lookup key =
      body.lookup key := lookup_foldl_removeKey (fun hmem => h (by simp [hmem])) body
  simp only [normalizeReasoning]
  split_ifs
  · rfl
  · split
    · exact hstripped
    · exact (keeps_spellEffort _ wire h _).trans hstripped

end Firstpass.WireBody
