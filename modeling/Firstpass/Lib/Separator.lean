import Mathlib.Data.List.Basic
import Mathlib.Data.List.Infix
import Mathlib.Data.List.TakeWhile

/-!
# Parts around a separator

How a list splits at one element into two parts, where the parts may have that element too, and
what the pieces are that it splits into at each such element. The stretch of a list goes from
the first of one element to the last of another.
-/

namespace Separator

variable {α : Type*} {a : α} {xs ys xs' ys' : List α}

/-- Two splits of one list are the same, or the first part of one goes on past the separator
of the other. -/
theorem append_cons_eq_iff :
    xs ++ a :: ys = xs' ++ a :: ys' ↔
      (xs = xs' ∧ ys = ys') ∨ (∃ mid, xs' = xs ++ a :: mid ∧ ys = mid ++ a :: ys') ∨
        ∃ mid, xs = xs' ++ a :: mid ∧ ys' = mid ++ a :: ys := by
  constructor
  · intro h
    rcases List.append_eq_append_iff.mp h with ⟨mid, rfl, hmid⟩ | ⟨mid, rfl, hmid⟩
    · cases mid with
      | nil =>
        cases hmid
        exact .inl ⟨(List.append_nil _).symm, rfl⟩
      | cons c mid =>
        cases hmid
        exact .inr (.inl ⟨mid, rfl, rfl⟩)
    · cases mid with
      | nil =>
        cases hmid
        exact .inl ⟨List.append_nil _, rfl⟩
      | cons c mid =>
        cases hmid
        exact .inr (.inr ⟨mid, rfl, rfl⟩)
  · rintro (⟨rfl, rfl⟩ | ⟨mid, rfl, rfl⟩ | ⟨mid, rfl, rfl⟩) <;> simp

theorem append_cons_inj_left (hxs : a ∉ xs) (hxs' : a ∉ xs') (h : xs ++ a :: ys = xs' ++ a :: ys') :
    xs = xs' ∧ ys = ys' := by
  rcases append_cons_eq_iff.mp h with heq | ⟨mid, rfl, -⟩ | ⟨mid, rfl, -⟩
  · exact heq
  · simp at hxs'
  · simp at hxs

theorem append_cons_inj_right (hys : a ∉ ys) (hys' : a ∉ ys')
    (h : xs ++ a :: ys = xs' ++ a :: ys') : xs = xs' ∧ ys = ys' := by
  rcases append_cons_eq_iff.mp h with heq | ⟨mid, -, rfl⟩ | ⟨mid, -, rfl⟩
  · exact heq
  · simp at hys
  · simp at hys'

section pieces

variable [DecidableEq α]

theorem length_splitOn (xs : List α) : (xs.splitOn a).length = xs.count a + 1 := by
  induction xs with
  | nil => rfl
  | cons x xs ih =>
    rw [List.splitOn_cons_eq_if_modifyHead]
    by_cases hx : x = a <;> simp [hx, ih]

theorem not_mem_of_mem_splitOn {piece : List α} (h : piece ∈ xs.splitOn a) : a ∉ piece := by
  induction xs generalizing piece with
  | nil => simp_all
  | cons x xs ih =>
    obtain ⟨first, rest, hsplit⟩ := List.exists_cons_of_ne_nil (List.splitOn_ne_nil a xs)
    rw [List.splitOn_cons_eq_if_modifyHead, hsplit] at h
    rw [hsplit] at ih
    by_cases hx : x = a
    · simp only [hx, BEq.rfl, if_true, List.mem_cons] at h
      rcases h with rfl | h
      · simp
      · exact ih (List.mem_cons.mpr h)
    · simp only [beq_iff_eq, hx, if_false, List.modifyHead_cons, List.mem_cons] at h
      rcases h with rfl | h
      · simpa [Ne.symm hx] using ih List.mem_cons_self
      · exact ih (List.mem_cons_of_mem first h)

omit [DecidableEq α] in
theorem mem_intersperse {sep x : α} (h : x ∈ xs) : x ∈ xs.intersperse sep := by
  induction xs with
  | nil => simp at h
  | cons y ys ih =>
    cases ys with
    | nil => exact h
    | cons z ys =>
      rcases List.mem_cons.mp h with rfl | h
      · simp
      · simp [ih h]

theorem infix_of_mem_splitOn {piece : List α} (h : piece ∈ xs.splitOn a) : piece <:+: xs := by
  have hxs : [a].intercalate (xs.splitOn a) = xs := List.intercalate_splitOn a
  rw [← hxs]
  exact List.infix_of_mem_flatten (mem_intersperse h)

theorem splitOn_concat (xs : List α) : (xs ++ [a]).splitOn a = xs.splitOn a ++ [[]] :=
  List.splitOn_append_cons_self xs []

omit [DecidableEq α] in
theorem intercalate_concat_nil (pieces : List (List α)) :
    [a].intercalate (pieces ++ [[]]) = [] ∨ ∃ ys, [a].intercalate (pieces ++ [[]]) = ys ++ [a] := by
  induction pieces with
  | nil => exact .inl rfl
  | cons piece pieces ih =>
    have hne : pieces ++ [[]] ≠ [] := by simp
    rw [List.cons_append, List.intercalate_cons_of_ne_nil hne]
    rcases ih with h | ⟨ys, h⟩
    · exact .inr ⟨piece, by simp [h]⟩
    · exact .inr ⟨piece ++ [a] ++ ys, by simp [h]⟩

/-- A list whose last piece is empty is empty or ends in the separator. -/
theorem ends_of_splitOn (h : (xs.splitOn a).getLastD [] = []) : xs = [] ∨ ∃ ys, xs = ys ++ [a] := by
  have hxs : [a].intercalate (xs.splitOn a) = xs := List.intercalate_splitOn a
  obtain ⟨pieces, last, hsplit⟩ := List.eq_nil_or_concat (xs.splitOn a) |>.resolve_left
    (List.splitOn_ne_nil a xs)
  obtain rfl : last = [] := by simpa [hsplit] using h
  rw [← hxs, hsplit, List.concat_eq_append]
  exact intercalate_concat_nil pieces

end pieces

section stretch

variable [DecidableEq α] {b : α} {before body after : List α}

theorem dropWhile_append_cons (h : a ∉ before) (rest : List α) :
    (before ++ a :: rest).dropWhile (· ≠ a) = a :: rest := by
  have hall : ∀ x ∈ before, decide (x ≠ a) = true := by
    intro x hx
    exact decide_eq_true fun heq => h (heq ▸ hx)
  rw [List.dropWhile_append_of_pos hall, List.dropWhile_cons_of_neg (by simp)]

/-- What is dropped has no `a`, and what is left begins with one. -/
theorem exists_of_dropWhile (h : xs.dropWhile (· ≠ a) ≠ []) :
    ∃ before rest, xs = before ++ a :: rest ∧ a ∉ before ∧ xs.dropWhile (· ≠ a) = a :: rest := by
  obtain ⟨c, rest, hrest⟩ := List.exists_cons_of_ne_nil h
  have hc : c = a := by
    have hhead := List.head?_dropWhile_not (· ≠ a) xs
    rw [hrest] at hhead
    simpa using hhead
  subst hc
  refine ⟨xs.takeWhile (· ≠ c), rest, ?_, fun hmem => ?_, hrest⟩
  · rw [← hrest, List.takeWhile_append_dropWhile]
  · simpa using List.mem_takeWhile_imp hmem

/-- From the first `a` to the last `b` after it. -/
def stretch (a b : α) (xs : List α) : List α :=
  ((xs.dropWhile (· ≠ a)).reverse.dropWhile (· ≠ b)).reverse

theorem stretch_eq (ha : a ∉ before) (hb : b ∉ after) :
    stretch a b (before ++ (a :: (body ++ [b]) ++ after)) = a :: (body ++ [b]) := by
  have hback : (a :: (body ++ [b]) ++ after).reverse =
      after.reverse ++ b :: (a :: body).reverse := by simp
  have hreverse : b ∉ after.reverse := by simpa using hb
  rw [stretch, List.cons_append, dropWhile_append_cons ha, ← List.cons_append, hback,
    dropWhile_append_cons hreverse]
  simp

theorem stretch_spec (hab : a ≠ b) (h : stretch a b xs ≠ []) :
    ∃ before body after, xs = before ++ (a :: (body ++ [b]) ++ after) ∧
      stretch a b xs = a :: (body ++ [b]) ∧ a ∉ before ∧ b ∉ after := by
  have hback : (xs.dropWhile (· ≠ a)).reverse.dropWhile (· ≠ b) ≠ [] := by
    simpa [stretch] using h
  have hfront : xs.dropWhile (· ≠ a) ≠ [] := by
    intro hnil
    rw [hnil] at hback
    exact hback rfl
  obtain ⟨before, rest, hxs, ha, hdrop⟩ := exists_of_dropWhile hfront
  rw [hdrop] at hback
  obtain ⟨after, front, hrest, hb, hstretch⟩ := exists_of_dropWhile hback
  have hall : a :: rest = front.reverse ++ b :: after.reverse := by
    rw [← List.reverse_reverse (a :: rest), hrest]
    simp
  -- The first symbol is an `a`, so the closing one comes after it.
  cases hopen : front.reverse with
  | nil =>
    rw [hopen] at hall
    exact absurd (List.cons.inj hall).1 hab
  | cons c body =>
    rw [hopen] at hall
    obtain ⟨rfl, hbody⟩ := List.cons.inj hall
    refine ⟨before, body, after.reverse, ?_, ?_, ha, by simpa using hb⟩
    · rw [hxs, hbody]
      simp
    · rw [stretch, hdrop, hstretch, List.reverse_cons, hopen]
      rfl

end stretch

end Separator
