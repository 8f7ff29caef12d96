import Firstpass.Core.Json
import Mathlib.Data.List.Infix

/-!
# Model access

The provider-agnostic request and response, the failures of a provider call,
and the last-resort condensing of a request that overflows every rung.
-/

namespace Firstpass

open Json (Value)

structure ChatMessage where
  role : String
  content : Value

def ChatMessage.text (role content : String) : ChatMessage := ⟨role, .string content⟩

structure ModelRequest where
  model : String
  system : Option String
  messages : List ChatMessage
  maxTokens : Nat
  tools : Value
  raw : Value
  cachePrefix : Bool

structure ModelResponse where
  model : String
  text : String
  inTokens : Nat
  cacheWriteTokens : Nat
  cacheReadTokens : Nat
  outTokens : Nat
  raw : Value

/-- Generation stopped at the output-token limit, in any of the wire formats. -/
def hitOutputLimit (raw : Value) : Bool :=
  let is (path : List String) (want : String) := (raw.pointer path).bind Value.asStr == some want
  is ["stop_reason"] "max_tokens"
    || is ["choices", "0", "finish_reason"] "length"
    || is ["incomplete_details", "reason"] "max_output_tokens"
    || is ["candidates", "0", "finishReason"] "MAX_TOKENS"

def ModelResponse.truncated (resp : ModelResponse) : Bool := hitOutputLimit resp.raw

inductive ProviderError
  | transport (detail : String)
  | http (status : Nat) (body : String)
  | decode (detail : String)
  deriving DecidableEq

/-- Transport errors and 5xx trigger failover; 4xx and decode errors do not. -/
def ProviderError.isFailoverEligible : ProviderError → Bool
  | .transport _ => true
  | .http status _ => 500 ≤ status
  | .decode _ => false

def contains (text pattern : String) : Bool := pattern.toList <:+: text.toList

/-- The rejection says that the prompt does not fit this rung, not that the
request is broken. -/
def isContextOverflow : ProviderError → Bool
  | .http status body =>
    if status ≠ 400 ∧ status ≠ 413 then false
    else
      let b := body.toLower
      contains b "prompt is too long"
        || contains b "context_length_exceeded"
        || contains b "maximum context length"
        || contains b "context window"
        || (contains b "token count" && contains b "exceed")
        || contains b "too many tokens"
  | _ => false

structure Auth where
  anthropicKey : Option String
  openaiKey : Option String
  anthropicBearer : Option String
  anthropicBeta : Option String
  anthropicVersion : Option String
  geminiKey : Option String

/-- A model backend. What it answers is arbitrary, and may differ between the
rungs that share it. -/
structure Provider where
  id : String
  complete : Nat → ModelRequest → Auth → Except ProviderError ModelResponse

structure ProviderRegistry where
  get : String → Option Provider

-- ---------------------------------------------------------------------------
-- Condensing
-- ---------------------------------------------------------------------------

structure CondenseConfig where
  keepHead : Nat
  keepTail : Nat

structure Condensed where
  request : ModelRequest
  dropped : Nat

def omittedNotice (dropped : Nat) : String :=
  "[" ++ toString dropped ++ " earlier turns omitted: this conversation exceeded the context " ++
    "window of every available model. The opening and the most recent turns are shown. If " ++
    "answering depends on the omitted portion, say so rather than guessing.]"

/-- Drop the middle of the conversation. `none` when there is nothing useful to
drop. -/
def condense (req : ModelRequest) (keepHead keepTail : Nat) : Option Condensed :=
  let n := req.messages.length
  let kept := keepHead + keepTail
  if n ≤ kept + 1 then none
  else
    let dropped := n - kept
    let messages := req.messages.take keepHead ++
      ChatMessage.text "user" (omittedNotice dropped) :: req.messages.drop (n - keepTail)
    some { request := { req with messages, raw := .null }, dropped }

end Firstpass
