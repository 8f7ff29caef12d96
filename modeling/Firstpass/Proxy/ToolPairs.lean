import Firstpass.Core.JsonObject
import Firstpass.Proxy.Provider
import Mathlib.Data.List.Chain

/-!
# Tool calls across a condensed conversation

A provider rejects a tool result whose call is not in the message before it, and a call
whose result is not in the message after it. `condense` cuts by message count, so a cut
that falls between a call and its result leaves one without the other.
-/

namespace Firstpass

open Json (Value)

-- ---------------------------------------------------------------------------
-- Paired conversations
-- ---------------------------------------------------------------------------

/-- The content blocks of one type. -/
def ChatMessage.blocks (type : String) (m : ChatMessage) : List Value :=
  (m.content.asArray.getD []).filter fun b => (b.get "type").bind Value.asStr = some type

def ChatMessage.toolUses (m : ChatMessage) : List Value := m.blocks "tool_use"

def ChatMessage.toolResults (m : ChatMessage) : List Value := m.blocks "tool_result"

/-- The result names the call by its id. -/
def ResultOf (use result : Value) : Prop :=
  ∃ id, use.get "id" = some (.string id) ∧ result.get "tool_use_id" = some (.string id)

/-- Two messages in a row: the second brings the results of the first one's calls, and no
others. -/
structure Answered (prev next : ChatMessage) : Prop where
  result : ∀ r ∈ next.toolResults, ∃ u ∈ prev.toolUses, ResultOf u r
  call : ∀ u ∈ prev.toolUses, ∃ r ∈ next.toolResults, ResultOf u r

structure Paired (messages : List ChatMessage) : Prop where
  adjacent : messages.IsChain Answered
  opens : ∀ m ∈ messages.head?, m.toolResults = []
  closes : ∀ m ∈ messages.getLast?, m.toolUses = []

/-- A message without tool blocks is followed by no result. -/
theorem answered_of_no_uses {prev next : ChatMessage} (h : prev.toolUses = []) :
    Answered prev next ↔ next.toolResults = [] := by
  constructor
  · intro hans
    refine List.eq_nil_iff_forall_not_mem.mpr fun r hr => ?_
    obtain ⟨u, hu, _⟩ := hans.result r hr
    rw [h] at hu
    cases hu
  · intro hnone
    exact ⟨by simp [hnone], by simp [h]⟩

theorem answered_of_no_results {prev next : ChatMessage} (h : next.toolResults = []) :
    Answered prev next ↔ prev.toolUses = [] := by
  constructor
  · intro hans
    refine List.eq_nil_iff_forall_not_mem.mpr fun u hu => ?_
    obtain ⟨r, hr, _⟩ := hans.call u hu
    rw [h] at hr
    cases hr
  · intro hnone
    exact ⟨by simp [h], by simp [hnone]⟩

@[simp] theorem text_toolUses (role content : String) :
    (ChatMessage.text role content).toolUses = [] := rfl

@[simp] theorem text_toolResults (role content : String) :
    (ChatMessage.text role content).toolResults = [] := rfl

/-- Around a plain turn, the two parts of a conversation are paired each for itself. -/
theorem paired_around {head tail : List ChatMessage} (role content : String) :
    Paired (head ++ ChatMessage.text role content :: tail) ↔ Paired head ∧ Paired tail := by
  have hopens : (∀ m ∈ (head ++ ChatMessage.text role content :: tail).head?, m.toolResults = []) ↔
      ∀ m ∈ head.head?, m.toolResults = [] := by cases head <;> simp
  have hcloses : (∀ m ∈ (head ++ ChatMessage.text role content :: tail).getLast?,
      m.toolUses = []) ↔ ∀ m ∈ tail.getLast?, m.toolUses = [] := by
    rw [List.getLast?_append, List.getLast?_cons]
    cases tail.getLast? <;> simp
  have hadjacent : (head ++ ChatMessage.text role content :: tail).IsChain Answered ↔
      (head.IsChain Answered ∧ ∀ m ∈ head.getLast?, m.toolUses = []) ∧
        tail.IsChain Answered ∧ ∀ m ∈ tail.head?, m.toolResults = [] := by
    rw [List.isChain_append, List.isChain_cons]
    simp only [List.head?_cons, Option.mem_def, Option.some.injEq, forall_eq',
      answered_of_no_uses (text_toolUses role content),
      answered_of_no_results (text_toolResults role content)]
    tauto
  constructor
  · rintro ⟨hchain, hfirst, hlast⟩
    obtain ⟨⟨hhead, hcut⟩, htail, hstart⟩ := hadjacent.mp hchain
    exact ⟨⟨hhead, hopens.mp hfirst, hcut⟩, htail, hstart, hcloses.mp hlast⟩
  · rintro ⟨hhead, htail⟩
    exact ⟨hadjacent.mpr ⟨⟨hhead.adjacent, hhead.closes⟩, htail.adjacent, htail.opens⟩,
      hopens.mpr hhead.opens, hcloses.mpr htail.closes⟩

/-- A prefix is paired where its last message makes no call. -/
theorem Paired.take (h : Paired messages) (n : Nat) :
    Paired (messages.take n) ↔ ∀ m ∈ (messages.take n).getLast?, m.toolUses = [] := by
  refine ⟨Paired.closes, fun hcut => ⟨h.adjacent.take n, fun m hm => ?_, hcut⟩⟩
  cases n with
  | zero => cases hm
  | succ n => exact h.opens m (by simpa [List.head?_take] using hm)

theorem Paired.drop (h : Paired messages) (n : Nat) :
    Paired (messages.drop n) ↔ ∀ m ∈ (messages.drop n).head?, m.toolResults = [] := by
  refine ⟨Paired.opens, fun hcut => ⟨h.adjacent.drop n, hcut, fun m hm => h.closes m ?_⟩⟩
  rw [List.getLast?_drop] at hm
  split at hm
  · cases hm
  · exact hm

-- ---------------------------------------------------------------------------
-- Condensing
-- ---------------------------------------------------------------------------

/-- Neither cut separates a call from its result: the last message kept before the gap makes
no call, and the first one kept after it brings no result. -/
structure CutsClear (req : ModelRequest) (keepHead keepTail : Nat) : Prop where
  head : ∀ m ∈ (req.messages.take keepHead).getLast?, m.toolUses = []
  tail : ∀ m ∈ (req.messages.drop (req.messages.length - keepTail)).head?, m.toolResults = []

theorem condense_messages (h : condense req keepHead keepTail = some c) :
    c.request.messages = req.messages.take keepHead ++
      ChatMessage.text "user" (omittedNotice c.dropped) ::
        req.messages.drop (req.messages.length - keepTail) := by
  unfold condense at h
  simp only at h
  split at h
  · cases h
  · cases h
    rfl

/-- A paired conversation is paired after condensing exactly where no cut separates a call
from its result. -/
theorem condense_paired_iff (req : ModelRequest) (keepHead keepTail : Nat) (c : Condensed)
    (hpaired : Paired req.messages) (hc : condense req keepHead keepTail = some c) :
    Paired c.request.messages ↔ CutsClear req keepHead keepTail := by
  rw [condense_messages hc, paired_around, hpaired.take, hpaired.drop]
  exact ⟨fun ⟨hhead, htail⟩ => ⟨hhead, htail⟩, fun h => ⟨h.head, h.tail⟩⟩

-- ---------------------------------------------------------------------------
-- An agent's first call
-- ---------------------------------------------------------------------------

def callTurn (id : String) : ChatMessage :=
  ⟨"assistant", .array [.object [("id", .string id), ("input", .object []), ("name", .string "ls"),
    ("type", .string "tool_use")]]⟩

def resultTurn (id : String) : ChatMessage :=
  ⟨"user", .array [.object [("content", .string "src"), ("tool_use_id", .string id),
    ("type", .string "tool_result")]]⟩

def agentRequest : ModelRequest where
  model := "acme/large"
  system := none
  messages := [.text "user" "fix it", callTurn "a", resultTurn "a", callTurn "b", resultTurn "b",
    .text "assistant" "done", .text "user" "and the tests", callTurn "c", resultTurn "c",
    .text "assistant" "done"]
  maxTokens := 1024
  tools := .null
  raw := .null
  cachePrefix := false

theorem answered_call (id : String) : Answered (callTurn id) (resultTurn id) where
  result r hr := by
    obtain rfl : r = _ := List.mem_singleton.mp hr
    exact ⟨_, List.mem_singleton.mpr rfl, id, rfl, rfl⟩
  call u hu := by
    obtain rfl : u = _ := List.mem_singleton.mp hu
    exact ⟨_, List.mem_singleton.mpr rfl, id, rfl, rfl⟩

theorem agentRequest_paired : Paired agentRequest.messages where
  adjacent := by
    have hplain {prev next : ChatMessage} (hprev : prev.toolUses = [])
        (hnext : next.toolResults = []) : Answered prev next :=
      (answered_of_no_uses hprev).mpr hnext
    simp only [agentRequest, List.isChain_cons_cons, answered_call, true_and]
    exact ⟨hplain rfl rfl, hplain rfl rfl, hplain rfl rfl, hplain rfl rfl, hplain rfl rfl,
      hplain rfl rfl, .singleton _⟩
  opens := by rintro m ⟨⟩; rfl
  closes := by rintro m ⟨⟩; rfl

/-- With the default settings the cut falls between the first call and its result. -/
theorem condense_unpaired :
    Paired agentRequest.messages ∧
      ∃ c, condense agentRequest 2 6 = some c ∧ ¬Paired c.request.messages := by
  refine ⟨agentRequest_paired, _, rfl, fun h => ?_⟩
  have hcut := (List.isChain_cons_cons.mp h.adjacent.tail).1
  exact List.cons_ne_nil _ _ ((answered_of_no_results (text_toolResults _ _)).mp hcut)

theorem condense_paired_sample :
    ∃ c, condense agentRequest 1 4 = some c ∧ Paired c.request.messages :=
  ⟨_, rfl, (condense_paired_iff agentRequest 1 4 _ agentRequest_paired rfl).mpr
    ⟨by rintro m ⟨⟩; rfl, by rintro m ⟨⟩; rfl⟩⟩

end Firstpass
