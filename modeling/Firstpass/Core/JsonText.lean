import Firstpass.Core.JsonLaws
import Mathlib.Data.Nat.Digits.Defs

/-!
# The compact text determines the value

`print_append` reads a value back off the front of a text: two values whose
texts start the same text, with no number character right after them, are one
value. `canonicalJson_eq_iff` follows: the canonical text is the same exactly
for values that differ in the order of keys only.
-/

namespace Firstpass.Json

-- ---------------------------------------------------------------------------
-- Strings
-- ---------------------------------------------------------------------------

def hexVal (c : Char) : Nat := if c.isDigit then c.toNat - 48 else c.toNat - 87

/-- The first character an escaped text stands for; `none` at a closing quote. -/
def unescape : List Char → Option (Char × List Char)
  | '\\' :: 'u' :: '0' :: '0' :: a :: b :: rest =>
    some (Char.ofNat (hexVal a * 16 + hexVal b), rest)
  | '\\' :: 'b' :: rest => some (Char.ofNat 8, rest)
  | '\\' :: 't' :: rest => some (Char.ofNat 9, rest)
  | '\\' :: 'n' :: rest => some (Char.ofNat 10, rest)
  | '\\' :: 'f' :: rest => some (Char.ofNat 12, rest)
  | '\\' :: 'r' :: rest => some (Char.ofNat 13, rest)
  | '\\' :: c :: rest => some (c, rest)
  | '"' :: _ => none
  | c :: rest => some (c, rest)
  | [] => none

theorem hexVal_digitChar : ∀ d < 16, hexVal (Nat.digitChar d) = d := by decide

/-- A character that is neither a quote nor a backslash stands for itself. -/
theorem unescape_plain {c : Char} (hq : c ≠ '"') (hb : c ≠ '\\') (rest : List Char) :
    unescape (c :: rest) = some (c, rest) := by
  rw [unescape.eq_def]
  split
  case h_8 h =>
    cases h
    exact absurd rfl hq
  case h_9 h =>
    cases h
    rfl
  case h_10 h => cases h
  all_goals
    next h =>
      cases h
      exact absurd rfl hb

theorem unescape_escapeChar (c : Char) (rest : List Char) :
    unescape (escapeChar c ++ rest) = some (c, rest) := by
  have ofToNat : ∀ n, c.toNat = n → Char.ofNat n = c := by
    rintro n rfl; exact Char.ofNat_toNat c
  unfold escapeChar
  split
  · subst_vars; rfl
  split
  · subst_vars; rfl
  split
  · exact congrArg (fun d => some (d, rest)) (ofToNat 8 ‹_›)
  split
  · exact congrArg (fun d => some (d, rest)) (ofToNat 9 ‹_›)
  split
  · exact congrArg (fun d => some (d, rest)) (ofToNat 10 ‹_›)
  split
  · exact congrArg (fun d => some (d, rest)) (ofToNat 12 ‹_›)
  split
  · exact congrArg (fun d => some (d, rest)) (ofToNat 13 ‹_›)
  split
  next h =>
    have hc : hexVal (Nat.digitChar (c.toNat / 16)) * 16 + hexVal (Nat.digitChar (c.toNat % 16)) =
        c.toNat := by
      rw [hexVal_digitChar _ (by omega), hexVal_digitChar _ (by omega)]
      omega
    simp only [List.cons_append, List.nil_append, unescape, hc, Char.ofNat_toNat]
  next hq hb _ _ _ _ _ _ => exact unescape_plain hq hb rest

theorem escape_append {s t x y : List Char}
    (h : s.flatMap escapeChar ++ '"' :: x = t.flatMap escapeChar ++ '"' :: y) :
    s = t ∧ x = y := by
  induction s generalizing t with
  | nil =>
    cases t with
    | nil => simpa using h
    | cons d t =>
      have hd := unescape_escapeChar d (t.flatMap escapeChar ++ '"' :: y)
      simp only [List.flatMap_nil, List.nil_append, List.flatMap_cons, List.append_assoc] at h
      rw [← h] at hd
      simp [unescape] at hd
  | cons c s ih =>
    have hc := unescape_escapeChar c (s.flatMap escapeChar ++ '"' :: x)
    simp only [List.flatMap_cons, List.append_assoc] at h
    rw [h] at hc
    cases t with
    | nil => simp [unescape] at hc
    | cons d t =>
      simp only [List.flatMap_cons, List.append_assoc, unescape_escapeChar, Option.some.injEq,
        Prod.mk.injEq] at hc
      obtain ⟨rfl, hrest⟩ := hc
      obtain ⟨rfl, rfl⟩ := ih hrest.symm
      exact ⟨rfl, rfl⟩

theorem printString_append {s t : String} (h : printString s ++ x = printString t ++ y) :
    s = t ∧ x = y := by
  simp only [printString, List.cons_append, List.append_assoc, List.nil_append,
    List.cons.injEq, true_and] at h
  obtain ⟨hl, rfl⟩ := escape_append h
  exact ⟨String.toList_inj.mp hl, rfl⟩

-- ---------------------------------------------------------------------------
-- Numbers
-- ---------------------------------------------------------------------------

def Stops (x : List Char) : Prop := ∀ c ∈ x.head?, isNumberChar c = false

theorem isNumberChar_of_mem_toDigits (h : c ∈ Nat.toDigits 10 n) : isNumberChar c = true := by
  simp [isNumberChar, Nat.isDigit_of_mem_toDigits (by decide) (by decide) h]

theorem toDigits_injective (h : Nat.toDigits 10 m = Nat.toDigits 10 n) : m = n := by
  have hm := congrArg (Nat.ofDigitChars 10 · 0) h
  simpa only [Nat.ofDigitChars_toDigits (b := 10) (by decide) (by decide)] using hm

theorem Number.print_ne_nil (n : Number) : n.print ≠ [] := by
  cases n with
  | posInt n => exact Nat.toDigits_ne_nil
  | negInt n => simp [Number.print]
  | float x =>
    intro h
    rcases x.fractional with hx | hx <;> simp_all [Number.print]

theorem Number.isNumberChar_of_mem_print {n : Number} (h : c ∈ n.print) :
    isNumberChar c = true := by
  cases n with
  | posInt n => exact isNumberChar_of_mem_toDigits h
  | negInt n =>
    rcases List.mem_cons.mp h with rfl | h
    · rfl
    · exact isNumberChar_of_mem_toDigits h
  | float x => exact x.numeric c h

theorem not_mem_toDigits (h : c.isDigit = false) : c ∉ Nat.toDigits 10 n := fun hm => by
  rw [Nat.isDigit_of_mem_toDigits (by decide) (by decide) hm] at h
  cases h

/-- What the text shows of the kind of number: a fraction or an exponent, a
leading minus sign. -/
def Number.Fractional (n : Number) : Prop := '.' ∈ n.print ∨ 'e' ∈ n.print

theorem Number.not_fractional_posInt : ¬ (Number.posInt n).Fractional := by
  simp [Number.Fractional, Number.print, not_mem_toDigits]

theorem Number.not_fractional_negInt : ¬ (Number.negInt n).Fractional := by
  simp [Number.Fractional, Number.print, not_mem_toDigits]

theorem Number.fractional_float : (Number.float x).Fractional := x.fractional

theorem Number.print_injective {m n : Number} (h : m.print = n.print) : m = n := by
  have hf : m.Fractional ↔ n.Fractional := by simp only [Number.Fractional, h]
  cases m with
  | posInt m =>
    cases n with
    | posInt n => rw [toDigits_injective h]
    | negInt n =>
      have hm : '-' ∈ Nat.toDigits 10 m := by
        rw [show Nat.toDigits 10 m = '-' :: Nat.toDigits 10 (n + 1) from h]; simp
      exact absurd hm (not_mem_toDigits rfl)
    | float x => exact absurd (hf.mpr fractional_float) not_fractional_posInt
  | negInt m =>
    cases n with
    | posInt n =>
      have hm : '-' ∈ Nat.toDigits 10 n := by
        rw [show Nat.toDigits 10 n = '-' :: Nat.toDigits 10 (m + 1) from h.symm]; simp
      exact absurd hm (not_mem_toDigits rfl)
    | negInt n =>
      obtain rfl : m = n := Nat.succ.inj (toDigits_injective (List.cons.inj h).2)
      rfl
    | float x => exact absurd (hf.mpr fractional_float) not_fractional_negInt
  | float x =>
    cases n with
    | posInt n => exact absurd (hf.mp fractional_float) not_fractional_posInt
    | negInt n => exact absurd (hf.mp fractional_float) not_fractional_negInt
    | float y =>
      obtain ⟨x, _, _⟩ := x
      obtain ⟨y, _, _⟩ := y
      obtain rfl : x = y := h
      rfl

theorem takeWhile_print (n : Number) (hx : Stops x) :
    (n.print ++ x).takeWhile isNumberChar = n.print := by
  rw [List.takeWhile_append_of_pos fun c hc => Number.isNumberChar_of_mem_print hc]
  cases x with
  | nil => simp
  | cons c x => simp [hx c (by simp)]

theorem Number.print_append {m n : Number} (hx : Stops x) (hy : Stops y)
    (h : m.print ++ x = n.print ++ y) : m = n ∧ x = y := by
  have hp : m.print = n.print := by
    rw [← takeWhile_print m hx, h, takeWhile_print n hy]
  exact ⟨print_injective hp, List.append_cancel_left (hp ▸ h)⟩

-- ---------------------------------------------------------------------------
-- Values
-- ---------------------------------------------------------------------------

/-- The value at the front of a text is determined by the text. -/
def Determined (v : Value) : Prop :=
  ∀ w x y, Stops x → Stops y → print v ++ x = print w ++ y → v = w ∧ x = y

theorem stops_cons (h : isNumberChar c = false) : Stops (c :: x) := by
  intro d hd; simp at hd; exact hd ▸ h

theorem stops_printElems (elems : List Value) : Stops (printElems elems ++ x) := by
  cases elems <;> exact stops_cons rfl

theorem stops_printFields (fields : List (String × Value)) : Stops (printFields fields ++ x) := by
  cases fields <;> exact stops_cons rfl

theorem printElems_append {vs ws : List Value} (hd : ∀ v ∈ vs, Determined v)
    (h : printElems vs ++ x = printElems ws ++ y) : vs = ws ∧ x = y := by
  induction vs generalizing ws with
  | nil =>
    cases ws with
    | nil => simpa [printElems] using h
    | cons w ws => exact absurd (List.cons.inj h).1 (by decide)
  | cons v vs ih =>
    cases ws with
    | nil => exact absurd (List.cons.inj h).1 (by decide)
    | cons w ws =>
      simp only [printElems, List.cons_append, List.append_assoc, List.cons.injEq, true_and] at h
      obtain ⟨rfl, hrest⟩ := hd v (by simp) _ _ _ (stops_printElems _) (stops_printElems _) h
      obtain ⟨rfl, rfl⟩ := ih (fun u hu => hd u (by simp [hu])) hrest
      exact ⟨rfl, rfl⟩

theorem printFields_append {fs gs : List (String × Value)} (hd : ∀ f ∈ fs, Determined f.2)
    (h : printFields fs ++ x = printFields gs ++ y) : fs = gs ∧ x = y := by
  induction fs generalizing gs with
  | nil =>
    cases gs with
    | nil => simpa [printFields] using h
    | cons g gs => exact absurd (List.cons.inj h).1 (by decide)
  | cons f fs ih =>
    cases gs with
    | nil => exact absurd (List.cons.inj h).1 (by decide)
    | cons g gs =>
      obtain ⟨k, v⟩ := f
      obtain ⟨k', w⟩ := g
      simp only [printFields, List.cons_append, List.append_assoc, List.cons.injEq, true_and] at h
      obtain ⟨rfl, htail⟩ := printString_append h
      obtain ⟨rfl, hrest⟩ := hd (k, v) (by simp) _ _ _ (stops_printFields _)
        (stops_printFields _) (List.cons.inj htail).2
      obtain ⟨rfl, rfl⟩ := ih (fun u hu => hd u (by simp [hu])) hrest
      exact ⟨rfl, rfl⟩

def leads : Value → Char → Prop
  | .null, c => c = 'n'
  | .bool b, c => c = if b then 't' else 'f'
  | .number _, c => isNumberChar c = true
  | .string _, c => c = '"'
  | .array _, c => c = '['
  | .object _, c => c = '{'

theorem print_cons (v : Value) : ∃ c rest, print v = c :: rest ∧ leads v c := by
  cases v with
  | null => exact ⟨_, _, rfl, rfl⟩
  | bool b => cases b <;> exact ⟨_, _, rfl, rfl⟩
  | number n =>
    obtain ⟨c, rest, hc⟩ := List.exists_cons_of_ne_nil n.print_ne_nil
    exact ⟨c, rest, by simp [print, hc], Number.isNumberChar_of_mem_print (n := n) (by simp [hc])⟩
  | string s => exact ⟨_, _, rfl, rfl⟩
  | array elems => cases elems <;> exact ⟨_, _, rfl, rfl⟩
  | object fields =>
    cases fields with
    | nil => exact ⟨_, _, rfl, rfl⟩
    | cons f fs => exact ⟨_, _, rfl, rfl⟩

theorem leads_eq (h : print v ++ x = print w ++ y) : ∃ c, leads v c ∧ leads w c := by
  obtain ⟨c, rest, hv, hc⟩ := print_cons v
  obtain ⟨d, rest', hw, hd⟩ := print_cons w
  rw [hv, hw] at h
  obtain rfl : c = d := (List.cons.inj h).1
  exact ⟨c, hc, hd⟩

theorem print_ne_bracket (v : Value) (h : print v ++ x = ']' :: y) : False := by
  obtain ⟨c, rest, hv, hc⟩ := print_cons v
  rw [hv] at h
  obtain rfl : c = ']' := (List.cons.inj h).1
  cases v with
  | bool b => cases b <;> simp [leads] at hc
  | _ => simp [leads, isNumberChar] at hc

theorem print_array_append {vs ws : List Value} (hd : ∀ v ∈ vs, Determined v)
    (h : print (.array vs) ++ x = print (.array ws) ++ y) : vs = ws ∧ x = y := by
  cases vs with
  | nil =>
    cases ws with
    | nil => simpa [print] using h
    | cons w ws =>
      simp only [print, List.cons_append, List.nil_append, List.append_assoc, List.cons.injEq,
        true_and] at h
      exact (print_ne_bracket w h.symm).elim
  | cons v vs =>
    cases ws with
    | nil =>
      simp only [print, List.cons_append, List.nil_append, List.append_assoc, List.cons.injEq,
        true_and] at h
      exact (print_ne_bracket v h).elim
    | cons w ws =>
      simp only [print, List.cons_append, List.append_assoc, List.cons.injEq, true_and] at h
      obtain ⟨rfl, hrest⟩ := hd v (by simp) _ _ _ (stops_printElems _) (stops_printElems _) h
      obtain ⟨rfl, hxy⟩ := printElems_append (fun u hu => hd u (by simp [hu])) hrest
      exact ⟨rfl, hxy⟩

theorem print_object_append {fs gs : List (String × Value)} (hd : ∀ f ∈ fs, Determined f.2)
    (h : print (.object fs) ++ x = print (.object gs) ++ y) : fs = gs ∧ x = y := by
  cases fs with
  | nil =>
    cases gs with
    | nil => simpa [print] using h
    | cons g gs => simp [print, printString] at h
  | cons f fs =>
    cases gs with
    | nil => simp [print, printString] at h
    | cons g gs =>
      -- a field after the first starts with a comma and is otherwise printed alike
      refine printFields_append hd ?_
      simpa [print, printFields] using h

theorem determined (v : Value) : Determined v := by
  induction v using Value.ind with
  | null =>
    intro w x y _ _ h
    obtain ⟨c, hv, hw⟩ := leads_eq h
    obtain rfl : c = 'n' := hv
    cases w with
    | null => simpa [print] using h
    | bool b => cases b <;> simp [leads] at hw
    | _ => simp [leads, isNumberChar] at hw
  | bool b =>
    intro w x y _ _ h
    obtain ⟨c, hv, hw⟩ := leads_eq h
    cases w with
    | bool b' => cases b <;> cases b' <;> simp_all [print, leads]
    | _ => cases b <;> simp_all [leads, isNumberChar]
  | number n =>
    intro w x y hx hy h
    obtain ⟨c, hv, hw⟩ := leads_eq h
    cases w with
    | number m =>
      obtain ⟨rfl, hxy⟩ := Number.print_append hx hy h
      exact ⟨rfl, hxy⟩
    | bool b => cases b <;> simp_all [leads, isNumberChar]
    | _ => simp_all [leads, isNumberChar]
  | string s =>
    intro w x y _ _ h
    obtain ⟨c, hv, hw⟩ := leads_eq h
    obtain rfl : c = '"' := hv
    cases w with
    | string t =>
      obtain ⟨rfl, hxy⟩ := printString_append (s := s) (t := t) h
      exact ⟨rfl, hxy⟩
    | bool b => cases b <;> simp [leads] at hw
    | _ => simp [leads, isNumberChar] at hw
  | array vs ih =>
    intro w x y _ _ h
    obtain ⟨c, hv, hw⟩ := leads_eq h
    obtain rfl : c = '[' := hv
    cases w with
    | array ws =>
      obtain ⟨rfl, hxy⟩ := print_array_append ih h
      exact ⟨rfl, hxy⟩
    | bool b => cases b <;> simp [leads] at hw
    | _ => simp [leads, isNumberChar] at hw
  | object fs ih =>
    intro w x y _ _ h
    obtain ⟨c, hv, hw⟩ := leads_eq h
    obtain rfl : c = '{' := hv
    cases w with
    | object gs =>
      obtain ⟨rfl, hxy⟩ := print_object_append ih h
      exact ⟨rfl, hxy⟩
    | bool b => cases b <;> simp [leads] at hw
    | _ => simp [leads, isNumberChar] at hw

theorem print_injective (h : print v = print w) : v = w :=
  (determined v w [] [] (by simp [Stops]) (by simp [Stops]) (by simpa using h)).1

/-- Values are compared by their texts. -/
abbrev Value.decEq : DecidableEq Value := fun _ _ =>
  decidable_of_iff _ ⟨print_injective, congrArg print⟩

/-- The canonical text is the same exactly for values that differ in the order
of keys only. -/
theorem canonicalJson_eq_iff (hv : UniqueKeys v) (hw : UniqueKeys w) :
    canonicalJson v = canonicalJson w ↔ EqUpToKeyOrder v w := by
  rw [← canonicalize_eq_iff hv hw]
  constructor
  · intro h
    exact print_injective (String.ofList_inj.mp h)
  · intro h
    rw [canonicalJson, canonicalJson, h]

end Firstpass.Json
