import Firstpass.Core.JsonText

/-!
# Reading JSON

The reader of `serde_json`: what it accepts, and the value it reads. How a decimal with a
fraction or an exponent is rounded to a float is the parameter `float`. The compact text of a
value is read as that value, for as long as its numbers are read as themselves.
-/

namespace Firstpass.Json

def isSpace (c : Char) : Bool := c == ' ' || c == '\n' || c == '\t' || c == '\r'

def skip (text : List Char) : List Char := text.dropWhile isSpace

-- ---------------------------------------------------------------------------
-- Strings
-- ---------------------------------------------------------------------------

def hexDigit? (c : Char) : Option Nat :=
  if c.isDigit then some (c.toNat - 48)
  else if 'a' ≤ c ∧ c ≤ 'f' then some (c.toNat - 87)
  else if 'A' ≤ c ∧ c ≤ 'F' then some (c.toNat - 55)
  else none

def hex4 (a b c d : Char) : Option Nat := do
  let a ← hexDigit? a
  let b ← hexDigit? b
  let c ← hexDigit? c
  let d ← hexDigit? d
  return ((16 * a + b) * 16 + c) * 16 + d

/-- The character of a `\u` escape, of two where the first is the lead of a surrogate pair. -/
def readUnicode (n : Nat) (rest : List Char) : Option (Char × List Char) :=
  if 0xDC00 ≤ n ∧ n ≤ 0xDFFF then none
  else if 0xD800 ≤ n ∧ n ≤ 0xDBFF then
    match rest with
    | '\\' :: 'u' :: a :: b :: c :: d :: rest => do
      let low ← hex4 a b c d
      if 0xDC00 ≤ low ∧ low ≤ 0xDFFF then
        return (Char.ofNat (0x10000 + (n - 0xD800) * 0x400 + (low - 0xDC00)), rest)
      else none
    | _ => none
  else some (Char.ofNat n, rest)

def readEscape : List Char → Option (Char × List Char)
  | 'u' :: a :: b :: c :: d :: rest => (hex4 a b c d).bind fun n => readUnicode n rest
  | '"' :: rest => some ('"', rest)
  | '\\' :: rest => some ('\\', rest)
  | '/' :: rest => some ('/', rest)
  | 'b' :: rest => some (Char.ofNat 8, rest)
  | 'f' :: rest => some (Char.ofNat 12, rest)
  | 'n' :: rest => some (Char.ofNat 10, rest)
  | 'r' :: rest => some (Char.ofNat 13, rest)
  | 't' :: rest => some (Char.ofNat 9, rest)
  | _ => none

/-- The rest of a string, after its opening quote. There are at most `n` characters. -/
def readString : Nat → List Char → Option (List Char × List Char)
  | 0, _ => none
  | n + 1, text =>
    match text with
    | [] => none
    | c :: rest =>
      if c = '"' then some ([], rest)
      else
        let char := if c = '\\' then readEscape rest
          else if c.toNat < 32 then none
          else some (c, rest)
        char.bind fun p => (readString n p.2).map fun q => (p.1 :: q.1, q.2)

-- ---------------------------------------------------------------------------
-- Numbers
-- ---------------------------------------------------------------------------

def isTokenChar (c : Char) : Bool := isNumberChar c || c == 'E'

def unsigned (token : List Char) : List Char :=
  if token.head? = some '-' then token.tail else token

/-- An integer that fits 64 bits is kept, and every other number is a float. -/
def readNumber (float : List Char → Option FloatText) (token : List Char) : Option Number :=
  let digits := unsigned token
  if digits = [] then none
  else if digits.all Char.isDigit then
    let n := Nat.ofDigitChars 10 digits 0
    if digits.head? = some '0' ∧ digits.length ≠ 1 then none
    else if token.head? = some '-' then
      if 0 < n ∧ n ≤ 2 ^ 63 then some (.negInt (n - 1)) else (float token).map .float
    else if n < 2 ^ 64 then some (.posInt n)
    else (float token).map .float
  else (float token).map .float

-- ---------------------------------------------------------------------------
-- Values
-- ---------------------------------------------------------------------------

def expect (literal text : List Char) (v : Value) : Option (Value × List Char) :=
  (text.dropPrefix? literal).map fun rest => (v, rest)

section
variable (value : List Char → Option (Value × List Char))

/-- The elements of an array, from the first on. There are at most `n`. -/
def readElems : Nat → List Char → Option (List Value × List Char)
  | 0, _ => none
  | n + 1, text =>
    (value text).bind fun p =>
      match skip p.2 with
      | ']' :: rest => some ([p.1], rest)
      | ',' :: rest => (readElems n rest).map fun q => (p.1 :: q.1, q.2)
      | _ => none

def readField (text : List Char) : Option ((String × Value) × List Char) :=
  match skip text with
  | '"' :: rest =>
    (readString rest.length rest).bind fun key =>
      match skip key.2 with
      | ':' :: rest => (value rest).map fun p => ((String.ofList key.1, p.1), p.2)
      | _ => none
  | _ => none

def readFields : Nat → List Char → Option (List (String × Value) × List Char)
  | 0, _ => none
  | n + 1, text =>
    (readField value text).bind fun p =>
      match skip p.2 with
      | '}' :: rest => some ([p.1], rest)
      | ',' :: rest => (readFields n rest).map fun q => (p.1 :: q.1, q.2)
      | _ => none

end

/-- A value at the front of a text, with no more than `depth` arrays and objects inside each
other. -/
def readValue (float : List Char → Option FloatText) :
    Nat → List Char → Option (Value × List Char)
  | depth, text =>
    match skip text with
    | [] => none
    | c :: rest =>
      if c = 'n' then expect ['u', 'l', 'l'] rest .null
      else if c = 't' then expect ['r', 'u', 'e'] rest (.bool true)
      else if c = 'f' then expect ['a', 'l', 's', 'e'] rest (.bool false)
      else if c = '"' then
        (readString rest.length rest).map fun s => (.string (String.ofList s.1), s.2)
      else if c = '[' then
        match depth with
        | 0 => none
        | depth + 1 =>
          match skip rest with
          | ']' :: rest => some (.array [], rest)
          | _ => (readElems (readValue float depth) rest.length rest).map fun p =>
              (.array p.1, p.2)
      else if c = '\x7b' then
        match depth with
        | 0 => none
        | depth + 1 =>
          match skip rest with
          | '\x7d' :: rest => some (.object [], rest)
          | _ => (readFields (readValue float depth) rest.length rest).map fun p =>
              (.object p.1, p.2)
      else
        let token := (c :: rest).takeWhile isTokenChar
        (readNumber float token).map fun n => (.number n, (c :: rest).dropWhile isTokenChar)

example (float : List Char → Option FloatText) :
    readValue float 0 ['n', 'u', 'l', 'l'] = some (.null, []) := by
  rw [readValue]
  rfl

/-- What `check_recursion` lets through of its 128 levels. -/
def maxDepth : Nat := 127

/-- `serde_json::from_str`, up to the value. Only spaces may follow it. -/
def fromStr (float : List Char → Option FloatText) (text : String) : Option Value :=
  (readValue float maxDepth text.toList).bind fun p => if skip p.2 = [] then some p.1 else none

-- ---------------------------------------------------------------------------
-- The compact text is read back
-- ---------------------------------------------------------------------------

theorem hexDigit?_digitChar : ∀ d < 16, hexDigit? (Nat.digitChar d) = some d := by decide

theorem readEscape_control {c : Char} (hc : c.toNat < 32) (rest : List Char) :
    readEscape ('u' :: '0' :: '0' :: Nat.digitChar (c.toNat / 16) ::
      Nat.digitChar (c.toNat % 16) :: rest) = some (c, rest) := by
  have hhigh := hexDigit?_digitChar (c.toNat / 16) (by omega)
  have hlow := hexDigit?_digitChar (c.toNat % 16) (by omega)
  have hzero : hexDigit? '0' = some 0 := by decide
  have hvalue : ((16 * 0 + 0) * 16 + c.toNat / 16) * 16 + c.toNat % 16 = c.toNat := by omega
  have hplain : ¬(0xDC00 ≤ c.toNat ∧ c.toNat ≤ 0xDFFF) ∧
      ¬(0xD800 ≤ c.toNat ∧ c.toNat ≤ 0xDBFF) := by
    omega
  simp only [readEscape, hex4, hzero, hhigh, hlow, Option.bind_eq_bind, Option.bind_some, hvalue,
    Option.pure_def, readUnicode, if_neg hplain.1, if_neg hplain.2, Char.ofNat_toNat]

/-- One character as the writer escapes it. -/
theorem readString_escapeChar (n : Nat) (c : Char) (rest : List Char) :
    readString (n + 1) (escapeChar c ++ rest) =
      (readString n rest).map fun q => (c :: q.1, q.2) := by
  have hback : ('\\' : Char) ≠ '"' := by decide
  have hescaped : ∀ text, readEscape text = some (c, rest) →
      readString (n + 1) ('\\' :: text) = (readString n rest).map fun q => (c :: q.1, q.2) := by
    intro text htext
    simp only [readString, if_neg hback, if_true, htext, Option.bind_some]
  have ofToNat : ∀ k, c.toNat = k → Char.ofNat k = c := by
    rintro k rfl
    exact Char.ofNat_toNat c
  unfold escapeChar
  split
  · subst_vars
    exact hescaped _ rfl
  split
  · subst_vars
    exact hescaped _ rfl
  split
  · exact hescaped _ (congrArg (fun d => some (d, rest)) (ofToNat 8 ‹_›))
  split
  · exact hescaped _ (congrArg (fun d => some (d, rest)) (ofToNat 9 ‹_›))
  split
  · exact hescaped _ (congrArg (fun d => some (d, rest)) (ofToNat 10 ‹_›))
  split
  · exact hescaped _ (congrArg (fun d => some (d, rest)) (ofToNat 12 ‹_›))
  split
  · exact hescaped _ (congrArg (fun d => some (d, rest)) (ofToNat 13 ‹_›))
  split
  · next hcontrol => exact hescaped _ (readEscape_control hcontrol rest)
  · next hquote hslash _ _ _ _ _ hcontrol =>
    simp only [List.cons_append, List.nil_append, readString, if_neg hquote, if_neg hslash,
      if_neg hcontrol, Option.bind_some]

theorem readString_print (s : List Char) {n : Nat} (hn : s.length < n) (rest : List Char) :
    readString n (s.flatMap escapeChar ++ '"' :: rest) = some (s, rest) := by
  induction s generalizing n with
  | nil =>
    obtain ⟨n, rfl⟩ := Nat.exists_eq_add_of_lt hn
    simp [readString]
  | cons c s ih =>
    obtain ⟨n, rfl⟩ : ∃ k, n = k + 1 := ⟨n - 1, by simp at hn; omega⟩
    have hs : s.length < n := by simpa using hn
    simp only [List.flatMap_cons, List.append_assoc, readString_escapeChar, ih hs, Option.map_some]

/-- The reader takes the number for itself: an integer fits 64 bits, and the text of a float is
that of the float it is read as. -/
def Number.Fits (float : List Char → Option FloatText) : Number → Prop
  | .posInt n => n < 2 ^ 64
  | .negInt n => n < 2 ^ 63
  | .float x => float x.text = some x

theorem head_toDigits {n : Nat} (hn : n ≠ 0) : (Nat.toDigits 10 n).head? ≠ some '0' := by
  induction n using Nat.strong_induction_on with
  | h n ih =>
    by_cases hsmall : n < 10
    · have hdigit : ∀ d < 10, d ≠ 0 → Nat.digitChar d ≠ '0' := by decide
      rw [Nat.toDigits_of_lt_base hsmall]
      simpa using hdigit n hsmall hn
    · have hlarge : 10 ≤ n := not_lt.mp hsmall
      rw [Nat.toDigits_of_base_le (by decide) hlarge,
        List.head?_append_of_ne_nil _ Nat.toDigits_ne_nil]
      exact ih (n / 10) (by omega) (by omega)

theorem all_isDigit_toDigits (n : Nat) : (Nat.toDigits 10 n).all Char.isDigit = true :=
  List.all_eq_true.mpr fun _ hc => Nat.isDigit_of_mem_toDigits (by decide) (by decide) hc

theorem no_leading_zero (n : Nat) :
    ¬((Nat.toDigits 10 n).head? = some '0' ∧ (Nat.toDigits 10 n).length ≠ 1) := by
  rintro ⟨hhead, hlength⟩
  by_cases hn : n = 0
  · exact hlength (by rw [hn, Nat.toDigits_zero]; rfl)
  · exact head_toDigits hn hhead

theorem readNumber_print {float : List Char → Option FloatText} {n : Number} (h : n.Fits float) :
    readNumber float n.print = some n := by
  have hread := fun k : Nat => Nat.ofDigitChars_ten_toDigits (n := k)
  cases n with
  | posInt n =>
    have hsign : (Nat.toDigits 10 n).head? ≠ some '-' := fun hhead =>
      not_mem_toDigits rfl (List.mem_of_mem_head? hhead)
    have hunsigned : unsigned (Nat.toDigits 10 n) = Nat.toDigits 10 n := if_neg hsign
    have hfits : n < 2 ^ 64 := h
    simp only [readNumber, Number.print, hunsigned, Nat.toDigits_ne_nil, all_isDigit_toDigits,
      hread, no_leading_zero n, hsign, hfits, if_false, if_true]
  | negInt n =>
    have hfits : 0 < n + 1 ∧ n + 1 ≤ 2 ^ 63 := ⟨n.succ_pos, h⟩
    have hunsigned : unsigned ('-' :: Nat.toDigits 10 (n + 1)) = Nat.toDigits 10 (n + 1) := rfl
    simp only [readNumber, Number.print, hunsigned, Nat.toDigits_ne_nil, all_isDigit_toDigits,
      hread, no_leading_zero (n + 1), List.head?_cons, hfits, and_self, if_false, if_true,
      Nat.add_sub_cancel]
  | float x =>
    have hfloat : (float x.text).map Number.float = some (.float x) := by
      rw [show float x.text = some x from h]
      rfl
    have hkept : ∀ c ∈ x.text, c ≠ '-' → c ∈ unsigned x.text := by
      intro c hc hminus
      rw [unsigned]
      split
      · next hhead =>
        obtain ⟨tail, htail⟩ : ∃ tail, x.text = '-' :: tail := List.head?_eq_some_iff.mp hhead
        rw [htail] at hc ⊢
        exact (List.mem_cons.mp hc).resolve_left hminus
      · exact hc
    obtain ⟨c, hc, hdigit⟩ : ∃ c ∈ unsigned x.text, c.isDigit = false := by
      obtain hc | hc := x.fractional
      · exact ⟨'.', hkept _ hc (by decide), rfl⟩
      · exact ⟨'e', hkept _ hc (by decide), rfl⟩
    have hall : (unsigned x.text).all Char.isDigit = false := by
      refine List.all_eq_false.mpr ⟨c, hc, ?_⟩
      simp only [hdigit, Bool.false_eq_true, not_false_eq_true]
    simp only [readNumber, Number.print, List.ne_nil_of_mem hc, hall, Bool.false_eq_true, if_false,
      hfloat]

-- ---------------------------------------------------------------------------
-- Values are read back
-- ---------------------------------------------------------------------------

/-- What the reader takes for itself: the numbers fit, and no more than `depth` arrays and
objects are inside each other. -/
def Readable (float : List Char → Option FloatText) : Nat → Value → Prop
  | _, .null => True
  | _, .bool _ => True
  | _, .string _ => True
  | _, .number n => n.Fits float
  | 0, .array _ => False
  | 0, .object _ => False
  | depth + 1, .array elems => ∀ v ∈ elems, Readable float depth v
  | depth + 1, .object fields => ∀ f ∈ fields, Readable float depth f.2

/-- No number goes on in the text. -/
def Delimited (x : List Char) : Prop := ∀ c ∈ x.head?, isTokenChar c = false

theorem delimited_cons (h : isTokenChar c = false) : Delimited (c :: x) := by
  intro d hd
  simp at hd
  exact hd ▸ h

theorem delimited_printElems (elems : List Value) : Delimited (printElems elems ++ x) := by
  cases elems <;> exact delimited_cons rfl

theorem delimited_printFields (fields : List (String × Value)) :
    Delimited (printFields fields ++ x) := by
  cases fields <;> exact delimited_cons rfl

theorem skip_cons (h : isSpace c = false) : skip (c :: x) = c :: x := by
  simp [skip, h]

theorem skip_print (v : Value) (x : List Char) : skip (print v ++ x) = print v ++ x := by
  obtain ⟨c, rest, hv, hc⟩ := print_cons v
  rw [hv]
  refine skip_cons ?_
  have hspace : ∀ c, isNumberChar c = true → isSpace c = false := by
    intro c hc
    by_contra hspace
    simp only [Bool.not_eq_false, isSpace, Bool.or_eq_true, beq_iff_eq] at hspace
    obtain ((rfl | rfl) | rfl) | rfl := hspace <;> simp [isNumberChar] at hc
  cases v with
  | number n => exact hspace c hc
  | bool b => cases b <;> cases hc <;> rfl
  | _ => cases hc; rfl

theorem length_printElems (elems : List Value) : elems.length < (printElems elems).length := by
  induction elems with
  | nil => decide
  | cons v vs ih =>
    simp only [printElems, List.length_cons, List.length_append]
    omega

theorem length_printFields (fields : List (String × Value)) :
    fields.length < (printFields fields).length := by
  induction fields with
  | nil => decide
  | cons f fs ih =>
    simp only [printFields, List.length_cons, List.length_append]
    omega

theorem length_le_flatMap_escapeChar (s : List Char) :
    s.length ≤ (s.flatMap escapeChar).length := by
  induction s with
  | nil => exact Nat.le_refl _
  | cons c s ih =>
    have hc : 0 < (escapeChar c).length := by
      unfold escapeChar
      repeat' split
      all_goals exact Nat.succ_pos _
    simp only [List.flatMap_cons, List.length_append, List.length_cons]
    omega

section
variable {value : List Char → Option (Value × List Char)}

def ReadsBack (value : List Char → Option (Value × List Char)) (v : Value) : Prop :=
  ∀ x, Delimited x → value (print v ++ x) = some (v, x)

theorem readElems_print {v : Value} {vs : List Value} (hv : ReadsBack value v)
    (hvs : ∀ w ∈ vs, ReadsBack value w) {n : Nat} (hn : vs.length < n) (x : List Char) :
    readElems value n (print v ++ (printElems vs ++ x)) = some (v :: vs, x) := by
  induction vs generalizing v n with
  | nil =>
    obtain ⟨n, rfl⟩ := Nat.exists_eq_add_of_lt hn
    simp only [readElems, hv _ (delimited_printElems []), Option.bind_some]
    rfl
  | cons w ws ih =>
    obtain ⟨n, rfl⟩ : ∃ k, n = k + 1 := ⟨n - 1, by simp at hn; omega⟩
    have htail := ih (hvs w List.mem_cons_self) (fun u hu => hvs u (List.mem_cons_of_mem w hu))
      (Nat.lt_of_succ_lt_succ hn)
    have hcomma : skip (printElems (w :: ws) ++ x) = ',' :: (print w ++ (printElems ws ++ x)) := by
      simp only [printElems, List.cons_append, List.append_assoc]
      exact skip_cons rfl
    simp only [readElems, hv _ (delimited_printElems (w :: ws)), Option.bind_some, hcomma, htail,
      Option.map_some]

theorem readField_print {k : String} {v : Value} (hv : ReadsBack value v) {x : List Char}
    (hx : Delimited x) :
    readField value (printString k ++ ':' :: (print v ++ x)) = some ((k, v), x) := by
  have hstart : skip (printString k ++ ':' :: (print v ++ x)) =
      '"' :: (k.toList.flatMap escapeChar ++ '"' :: ':' :: (print v ++ x)) := by
    simp only [printString, List.cons_append, List.append_assoc, List.nil_append]
    exact skip_cons rfl
  have hfits : k.toList.length <
      (k.toList.flatMap escapeChar ++ '"' :: ':' :: (print v ++ x)).length := by
    have hescaped := length_le_flatMap_escapeChar k.toList
    simp only [List.length_append, List.length_cons]
    omega
  have hcolon : skip (':' :: (print v ++ x)) = ':' :: (print v ++ x) := skip_cons rfl
  simp only [readField, hstart, readString_print _ hfits, Option.bind_some, hcolon, hv x hx,
    Option.map_some, String.ofList_toList]

theorem readFields_print {f : String × Value} {fs : List (String × Value)}
    (hf : ReadsBack value f.2) (hfs : ∀ g ∈ fs, ReadsBack value g.2) {n : Nat} (hn : fs.length < n)
    (x : List Char) :
    readFields value n (printString f.1 ++ ':' :: (print f.2 ++ (printFields fs ++ x))) =
      some (f :: fs, x) := by
  induction fs generalizing f n with
  | nil =>
    obtain ⟨n, rfl⟩ := Nat.exists_eq_add_of_lt hn
    simp only [readFields, readField_print hf (delimited_printFields []), Option.bind_some]
    rfl
  | cons g gs ih =>
    obtain ⟨n, rfl⟩ : ∃ k, n = k + 1 := ⟨n - 1, by simp at hn; omega⟩
    have htail := ih (hfs g List.mem_cons_self) (fun u hu => hfs u (List.mem_cons_of_mem g hu))
      (Nat.lt_of_succ_lt_succ hn)
    have hcomma : skip (printFields (g :: gs) ++ x) =
        ',' :: (printString g.1 ++ ':' :: (print g.2 ++ (printFields gs ++ x))) := by
      obtain ⟨k, v⟩ := g
      simp only [printFields, List.cons_append, List.append_assoc]
      exact skip_cons rfl
    simp only [readFields, readField_print hf (delimited_printFields (g :: gs)), Option.bind_some,
      hcomma, htail, Option.map_some]

end

theorem dropWhile_print {n : Number} {x : List Char} (hx : Delimited x) :
    (n.print ++ x).takeWhile isTokenChar = n.print ∧ (n.print ++ x).dropWhile isTokenChar = x := by
  have hn : ∀ c ∈ n.print, isTokenChar c = true := fun c hc => by
    simp only [isTokenChar, Number.isNumberChar_of_mem_print hc, Bool.true_or]
  have hstop : x.takeWhile isTokenChar = [] ∧ x.dropWhile isTokenChar = x := by
    cases x with
    | nil => exact ⟨rfl, rfl⟩
    | cons c x =>
      have hc : isTokenChar c = false := hx c rfl
      simp only [List.takeWhile_cons, List.dropWhile_cons, hc, Bool.false_eq_true, if_false,
        and_self]
  rw [List.takeWhile_append_of_pos hn, List.dropWhile_append_of_pos hn, hstop.1, hstop.2,
    List.append_nil]
  exact ⟨rfl, rfl⟩

/-- Whatever a number's text starts with, it is no other value's first character. -/
theorem ne_of_isNumberChar {c : Char} (h : isNumberChar c = true) :
    c ≠ 'n' ∧ c ≠ 't' ∧ c ≠ 'f' ∧ c ≠ '"' ∧ c ≠ '[' ∧ c ≠ '\x7b' := by
  refine ⟨?_, ?_, ?_, ?_, ?_, ?_⟩
  all_goals
    rintro rfl
    simp [isNumberChar] at h

section
variable {float : List Char → Option FloatText} {depth : Nat}

theorem readValue_number {n : Number} (h : n.Fits float) :
    ReadsBack (readValue float depth) (.number n) := by
  intro x hx
  obtain ⟨c, rest, hcons, hc⟩ := print_cons (.number n)
  have hnumber : isNumberChar c = true := hc
  obtain ⟨hn, ht, hf, hquote, hbracket, hbrace⟩ := ne_of_isNumberChar hnumber
  obtain ⟨htoken, hdrop⟩ := dropWhile_print (n := n) hx
  have hskip := skip_print (.number n) x
  have hprint : n.print ++ x = c :: (rest ++ x) := congrArg (· ++ x) hcons
  rw [hprint] at htoken hdrop
  rw [hcons, List.cons_append] at hskip ⊢
  rw [readValue, hskip]
  simp only [hn, ht, hf, hquote, hbracket, hbrace, if_false, htoken, hdrop, readNumber_print h,
    Option.map_some]

theorem expect_append (literal x : List Char) (v : Value) :
    expect literal (literal ++ x) v = some (v, x) := by
  have hdrop : (literal ++ x).dropPrefix? literal = some x :=
    List.dropPrefix?_eq_some_iff.mpr ⟨literal, rfl, beq_self_eq_true literal⟩
  rw [expect, hdrop]
  rfl

theorem readValue_null : ReadsBack (readValue float depth) .null := by
  intro x _
  rw [readValue, skip_print]
  exact expect_append ['u', 'l', 'l'] x .null

theorem readValue_bool (b : Bool) : ReadsBack (readValue float depth) (.bool b) := by
  intro x _
  rw [readValue, skip_print]
  cases b with
  | true => exact expect_append ['r', 'u', 'e'] x (.bool true)
  | false => exact expect_append ['a', 'l', 's', 'e'] x (.bool false)

theorem readValue_string (s : String) : ReadsBack (readValue float depth) (.string s) := by
  intro x _
  have hskip := skip_print (.string s) x
  have hprint : print (.string s) ++ x = '"' :: (s.toList.flatMap escapeChar ++ '"' :: x) := by
    simp only [print, printString, List.cons_append, List.append_assoc, List.nil_append]
  have hfits : s.toList.length < (s.toList.flatMap escapeChar ++ '"' :: x).length := by
    have hescaped := length_le_flatMap_escapeChar s.toList
    simp only [List.length_append, List.length_cons]
    omega
  rw [hprint] at hskip ⊢
  rw [readValue, hskip]
  simp only [readString_print _ hfits, Option.map_some, String.ofList_toList]
  rfl

theorem readValue_array {elems : List Value}
    (h : ∀ v ∈ elems, ReadsBack (readValue float depth) v) :
    ReadsBack (readValue float (depth + 1)) (.array elems) := by
  intro x _
  have hskip := skip_print (.array elems) x
  cases elems with
  | nil =>
    rw [readValue, hskip]
    rfl
  | cons v vs =>
    have hprint : print (.array (v :: vs)) ++ x = '[' :: (print v ++ (printElems vs ++ x)) := by
      simp only [print, List.cons_append, List.append_assoc]
    have hfits : vs.length < (print v ++ (printElems vs ++ x)).length := by
      have helems := length_printElems vs
      simp only [List.length_append]
      omega
    have hread := readElems_print (h v List.mem_cons_self)
      (fun w hw => h w (List.mem_cons_of_mem v hw)) hfits x
    rw [hprint] at hskip ⊢
    rw [readValue, hskip]
    simp only [Char.reduceEq, if_false, if_true, skip_print, hread, Option.map_some]
    split
    · next hempty => exact (print_ne_bracket v hempty).elim
    · rfl

theorem readValue_object {fields : List (String × Value)}
    (h : ∀ f ∈ fields, ReadsBack (readValue float depth) f.2) :
    ReadsBack (readValue float (depth + 1)) (.object fields) := by
  intro x _
  have hskip := skip_print (.object fields) x
  cases fields with
  | nil =>
    rw [readValue, hskip]
    rfl
  | cons f fs =>
    obtain ⟨k, v⟩ := f
    have hprint : print (.object ((k, v) :: fs)) ++ x =
        '\x7b' :: (printString k ++ ':' :: (print v ++ (printFields fs ++ x))) := by
      simp only [print, List.cons_append, List.append_assoc]
    have hfits : fs.length <
        (printString k ++ ':' :: (print v ++ (printFields fs ++ x))).length := by
      have hfields := length_printFields fs
      simp only [List.length_append, List.length_cons]
      omega
    have hread := readFields_print (h (k, v) List.mem_cons_self)
      (fun g hg => h g (List.mem_cons_of_mem (k, v) hg)) hfits x
    have hstart : skip (printString k ++ ':' :: (print v ++ (printFields fs ++ x))) =
        printString k ++ ':' :: (print v ++ (printFields fs ++ x)) := skip_cons rfl
    rw [hprint] at hskip ⊢
    rw [readValue, hskip]
    simp only [hstart, hread, Option.map_some]
    rfl

/-- The compact text of a value is read as that value. -/
theorem readValue_print {v : Value} (h : Readable float depth v) :
    ReadsBack (readValue float depth) v := by
  induction depth generalizing v with
  | zero =>
    cases v with
    | null => exact readValue_null
    | bool b => exact readValue_bool b
    | number n => exact readValue_number h
    | string s => exact readValue_string s
    | array elems => exact h.elim
    | object fields => exact h.elim
  | succ depth ih =>
    cases v with
    | null => exact readValue_null
    | bool b => exact readValue_bool b
    | number n => exact readValue_number h
    | string s => exact readValue_string s
    | array elems => exact readValue_array fun v hv => ih (h v hv)
    | object fields => exact readValue_object fun f hf => ih (h f hf)

theorem fromStr_print {v : Value} (h : Readable float maxDepth v) :
    fromStr float (String.ofList (print v)) = some v := by
  have hread := readValue_print h [] (by simp [Delimited])
  rw [List.append_nil] at hread
  rw [fromStr, String.toList_ofList, hread]
  rfl

end

-- ---------------------------------------------------------------------------
-- The compact text is one line
-- ---------------------------------------------------------------------------

/-- A text without control characters, so on one line. -/
def Plain (text : List Char) : Prop := ∀ c ∈ text, 32 ≤ c.toNat

@[simp] theorem plain_nil : Plain [] := by simp [Plain]

@[simp] theorem plain_cons : Plain (c :: text) ↔ 32 ≤ c.toNat ∧ Plain text := by simp [Plain]

@[simp] theorem plain_append : Plain (x ++ y) ↔ Plain x ∧ Plain y := by
  simp only [Plain, List.mem_append, or_imp, forall_and]

theorem plain_escapeChar (c : Char) : Plain (escapeChar c) := by
  have hdigit : ∀ d < 16, 32 ≤ (Nat.digitChar d).toNat := by decide
  have hhigh : c.toNat < 32 → 32 ≤ (Nat.digitChar (c.toNat / 16)).toNat := fun hc =>
    hdigit _ (by omega)
  have hlow := hdigit (c.toNat % 16) (Nat.mod_lt _ (by decide))
  unfold escapeChar
  repeat' split
  all_goals simp_all

theorem plain_printString (s : String) : Plain (printString s) := by
  have hescaped : Plain (s.toList.flatMap escapeChar) := by
    intro c hc
    obtain ⟨d, _, hd⟩ := List.mem_flatMap.mp hc
    exact plain_escapeChar d c hd
  simp [printString, hescaped]

theorem Number.plain_print (n : Number) : Plain n.print := by
  intro c hc
  have hnumber := Number.isNumberChar_of_mem_print hc
  simp only [isNumberChar, Bool.or_eq_true, beq_iff_eq] at hnumber
  obtain (((hdigit | rfl) | rfl) | rfl) | rfl := hnumber
  · have hge := (Char.isDigit_iff_toNat.mp hdigit).1
    exact Nat.le_trans (by decide) hge
  all_goals decide

theorem plain_print (v : Value) : Plain (print v) := by
  induction v using Value.ind with
  | null => simp [print]
  | bool b => cases b <;> simp [print]
  | number n => exact n.plain_print
  | string s => exact plain_printString s
  | array elems ih =>
    have helems : ∀ vs ⊆ elems, Plain (printElems vs) := by
      intro vs hvs
      induction vs with
      | nil => simp [printElems]
      | cons v vs ih' =>
        obtain ⟨hv, hvs⟩ := List.cons_subset.mp hvs
        simp [printElems, ih v hv, ih' hvs]
    cases elems with
    | nil => simp [print]
    | cons v vs => simp [print, ih v List.mem_cons_self, helems vs (List.subset_cons_self v vs)]
  | object fields ih =>
    have hfields : ∀ fs ⊆ fields, Plain (printFields fs) := by
      intro fs hfs
      induction fs with
      | nil => simp [printFields]
      | cons f fs ih' =>
        obtain ⟨hf, hfs⟩ := List.cons_subset.mp hfs
        simp [printFields, plain_printString, ih f hf, ih' hfs]
    cases fields with
    | nil => simp [print]
    | cons f fs =>
      simp [print, plain_printString, ih f List.mem_cons_self,
        hfields fs (List.subset_cons_self f fs)]

end Firstpass.Json
