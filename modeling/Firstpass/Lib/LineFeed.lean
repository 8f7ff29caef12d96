import Mathlib.Data.List.Basic
import Mathlib.Tactic.TypeStar

/-!
# Reading lines from a stream that arrives in chunks

A reader keeps the unfinished line and hands each finished one on. A line over
its cap is dropped whole, so that the memory it takes is bounded. However the
stream is cut, the lines handed on are those of the whole stream that fit.
-/

namespace LineFeed

structure Reader (α σ : Type*) where
  line : List α
  overflow : Bool
  out : σ

section reader

variable {α σ : Type*} [DecidableEq α] (newline : α) (cap : Nat) (process : List α → σ → σ)

def Reader.fresh (out : σ) : Reader α σ := ⟨[], false, out⟩

def Reader.read (r : Reader α σ) (b : α) : Reader α σ :=
  if b = newline then
    ⟨[], false, if r.overflow then r.out else process r.line r.out⟩
  else if r.overflow then r
  else
    let line := r.line ++ [b]
    if cap < line.length then { r with line := [], overflow := true } else { r with line }

def Reader.feed (r : Reader α σ) (chunk : List α) : Reader α σ :=
  chunk.foldl (Reader.read newline cap process) r

/-- The lines that a newline ends, without it. -/
def lines (stream : List α) : List (List α) := (stream.splitOn newline).dropLast

theorem lines_single {line : List α} (h : newline ∉ line) :
    lines newline (line ++ [newline]) = [line] := by
  have hsplit : (line ++ [newline]).splitOn newline = [line, []] := by
    rw [List.splitOn_append_cons_self_of_not_mem h]
    rfl
  rw [lines, hsplit]
  rfl

/-- The reader after the symbols `p` of a line that has not ended. -/
def pending (p : List α) (out : σ) : Reader α σ :=
  if p.length ≤ cap then ⟨p, false, out⟩ else ⟨[], true, out⟩

variable {newline cap process}

omit [DecidableEq α] in
theorem pending_nil (out : σ) : pending cap ([] : List α) out = .fresh out := rfl

omit [DecidableEq α] in
theorem pending_out (p : List α) (out : σ) : (pending cap p out).out = out := by
  rw [pending]
  split_ifs <;> rfl

theorem read_symbol {b : α} (hb : b ≠ newline) (p : List α) (out : σ) :
    (pending cap p out).read newline cap process b = pending cap (p ++ [b]) out := by
  have hlen : (p ++ [b]).length = p.length + 1 := by simp
  rw [Reader.read, if_neg hb]
  by_cases hp : p.length ≤ cap
  · simp only [pending, if_pos hp, Bool.false_eq_true, if_false]
    by_cases hfits : (p ++ [b]).length ≤ cap
    · rw [if_neg (by omega), if_pos hfits]
    · rw [if_pos (by omega), if_neg hfits]
  · have hover : ¬ (p ++ [b]).length ≤ cap := by omega
    simp only [pending, if_neg hp, if_neg hover, if_true]

theorem read_newline (p : List α) (out : σ) :
    (pending cap p out).read newline cap process newline =
      .fresh (if p.length ≤ cap then process p out else out) := by
  rw [Reader.read, if_pos rfl]
  by_cases hp : p.length ≤ cap <;> simp [pending, hp, Reader.fresh]

omit [DecidableEq α] in
theorem modifyHead_nil (pieces : List (List α)) : pieces.modifyHead ([] ++ ·) = pieces :=
  congrFun List.modifyHead_id pieces

/-- What a reader makes of a stream, from the symbols of its unfinished line on. -/
theorem feed_pending (stream p : List α) (out : σ) :
    ((pending cap p out).feed newline cap process stream).out =
      ((((stream.splitOn newline).modifyHead (p ++ ·)).dropLast).filter
        (·.length ≤ cap)).foldl (fun out line => process line out) out := by
  induction stream generalizing p out with
  | nil => simp [Reader.feed, pending_out]
  | cons b stream ih =>
    rw [Reader.feed, List.foldl_cons, ← Reader.feed]
    by_cases hb : b = newline
    · subst hb
      rw [read_newline, ← pending_nil, ih, modifyHead_nil, List.splitOn_cons_eq_if_modifyHead,
        if_pos (beq_self_eq_true b), List.modifyHead_cons, List.append_nil,
        List.dropLast_cons_of_ne_nil (List.splitOn_ne_nil b stream)]
      by_cases hp : p.length ≤ cap <;> simp [hp]
    · have hcons : (p ++ [b] ++ ·) = (p ++ ·) ∘ (b :: ·) := by
        funext line
        simp
      rw [read_symbol hb, ih, List.splitOn_cons_eq_if_modifyHead, if_neg (by simpa using hb),
        List.modifyHead_modifyHead, hcons]

theorem read_length {r : Reader α σ} (h : r.line.length ≤ cap) (b : α) :
    (r.read newline cap process b).line.length ≤ cap := by
  rw [Reader.read]
  by_cases hb : b = newline
  · simp [hb]
  · cases hover : r.overflow with
    | true => simpa [hb] using h
    | false =>
      by_cases hlong : cap < (r.line ++ [b]).length
      · simp only [if_neg hb, Bool.false_eq_true, if_false, if_pos hlong]
        exact Nat.zero_le cap
      · simp only [if_neg hb, Bool.false_eq_true, if_false, if_neg hlong]
        exact Nat.le_of_not_lt hlong

/-- The unfinished line that a reader keeps is never over its cap. -/
theorem feed_length {r : Reader α σ} (h : r.line.length ≤ cap) (chunk : List α) :
    (r.feed newline cap process chunk).line.length ≤ cap := by
  induction chunk generalizing r with
  | nil => exact h
  | cons b chunk ih => exact ih (read_length h b)

theorem feed_flatten (chunks : List (List α)) (r : Reader α σ) :
    chunks.foldl (Reader.feed newline cap process) r = r.feed newline cap process chunks.flatten :=
  List.foldl_flatten.symm

/-- However a stream is cut into chunks, the lines handed on are those of the stream that fit. -/
theorem feed_lines (chunks : List (List α)) (out : σ) :
    (chunks.foldl (Reader.feed newline cap process) (.fresh out)).out =
      ((lines newline chunks.flatten).filter (·.length ≤ cap)).foldl
        (fun out line => process line out) out := by
  rw [feed_flatten, ← pending_nil, feed_pending, modifyHead_nil, lines]

end reader

section report

variable {ε ρ σ : Type*}

/-- The last report that a run of events makes. -/
def lastReport (report : ε → Option ρ) (events : List ε) : Option ρ :=
  (events.filterMap report).getLast?

theorem lastReport_eq_none {report : ε → Option ρ} {events : List ε}
    (h : ∀ e ∈ events, report e = none) : lastReport report events = none := by
  rw [lastReport, List.filterMap_eq_nil_iff.mpr h]
  rfl

/-- A register that each event overwrites with what it reports holds the last report. -/
theorem foldl_report (report : ε → Option ρ) {step : σ → ε → σ} {get : σ → ρ} {events : List ε}
    (hstep : ∀ e ∈ events, ∀ s, get (step s e) = (report e).getD (get s)) (s : σ) :
    get (events.foldl step s) = (lastReport report events).getD (get s) := by
  induction events generalizing s with
  | nil => rfl
  | cons e events ih =>
    obtain ⟨hnow, hlater⟩ := List.forall_mem_cons.mp hstep
    rw [List.foldl_cons, ih hlater, hnow, lastReport, lastReport, List.filterMap_cons]
    cases report e with
    | none => rfl
    | some r => simp [List.getLast?_cons]

end report

end LineFeed
