import Firstpass.Core.Config
import Firstpass.Core.JsonText

/-!
# The fingerprint of an experiment

What a receipt carries of the configuration it was gathered under: the first eight bytes of a
digest over both ladders, the margin and alpha of the route's challenger.
-/

namespace Firstpass.ConfigFile

open Json (Value FloatText)
open Routing (Bytes utf8 hexDigits hexEncode)

variable {F : Type}

/-- How a finite float is written in JSON, and SHA-256. -/
structure Digest (F : Type) where
  text : F → FloatText
  sha256 : Bytes → Bytes

/-- `[incumbent_ladder, challenger_ladder, margin, alpha]` -/
def Challenger.canonical (text : F → FloatText) (ch : Challenger F)
    (incumbentLadder : List String) : Value :=
  .array [.array (incumbentLadder.map .string), .array (ch.ladder.map .string),
    .number (.float (text ch.margin)), .number (.float (text ch.alpha))]

/-- The bytes that a fingerprint hashes. -/
def Challenger.hashed (dg : Digest F) (ch : Challenger F) (incumbentLadder : List String) : Bytes :=
  utf8 (String.ofList (Json.print (ch.canonical dg.text incumbentLadder)))

def Challenger.fingerprint (dg : Digest F) (ch : Challenger F) (incumbentLadder : List String) :
    String :=
  hexEncode ((dg.sha256 (ch.hashed dg incumbentLadder)).take 8)

-- ---------------------------------------------------------------------------
-- What a fingerprint tells apart
-- ---------------------------------------------------------------------------

theorem hexDigit_injective : ∀ m < 16, ∀ n < 16, Nat.digitChar m = Nat.digitChar n → m = n := by
  decide

theorem hexDigits_injective {a b : UInt8} (h : hexDigits a = hexDigits b) : a = b := by
  have ha := a.toNat_lt
  have hb := b.toNat_lt
  simp only [hexDigits, List.cons.injEq, and_true] at h
  obtain ⟨hhigh, hlow⟩ := h
  have hhigh := hexDigit_injective (a.toNat / 16) (by omega) (b.toNat / 16) (by omega) hhigh
  have hlow := hexDigit_injective (a.toNat % 16) (by omega) (b.toNat % 16) (by omega) hlow
  exact UInt8.toNat_inj.mp (by omega)

theorem hexEncode_injective {first second : Bytes} (h : hexEncode first = hexEncode second) :
    first = second := by
  have h : first.flatMap hexDigits = second.flatMap hexDigits := String.ofList_injective h
  induction first generalizing second with
  | nil =>
    cases second with
    | nil => rfl
    | cons b second => simp [hexDigits] at h
  | cons a first ih =>
    cases second with
    | nil => simp [hexDigits] at h
    | cons b second =>
      simp only [List.flatMap_cons] at h
      obtain ⟨hhead, htail⟩ := List.append_inj h (by simp [hexDigits])
      rw [hexDigits_injective hhead, ih (congrArg String.ofList htail) htail]

theorem toList_loop (bytes : ByteArray) (i : Nat) (front : List UInt8) :
    ByteArray.toList.loop bytes i front = front.reverse ++ bytes.data.toList.drop i := by
  fun_induction ByteArray.toList.loop bytes i front with
  | case1 i front hi ih =>
    have hi : i < bytes.data.toList.length := hi
    have hget : bytes.get! i = bytes.data.toList[i] := getElem!_pos bytes.data i hi
    rw [ih, hget, List.reverse_cons, List.append_assoc, List.singleton_append,
      ← List.drop_eq_getElem_cons hi]
  | case2 i front hi =>
    have hi : bytes.data.toList.length ≤ i := not_lt.mp hi
    rw [List.drop_of_length_le hi, List.append_nil]

theorem utf8_injective {s t : String} (h : utf8 s = utf8 t) : s = t := by
  simp only [utf8, ByteArray.toList, toList_loop, List.reverse_nil, List.nil_append,
    List.drop_zero] at h
  exact String.toByteArray_inj.mp (ByteArray.ext (Array.toList_inj.mp h))

/-- What is relied on of the digest, for the routes of `S` that have a challenger: the text of
a float tells it from the others, and so do the eight bytes that are kept tell what was
hashed. -/
structure Digest.Separates (dg : Digest F) (S : Route F → Prop) : Prop where
  margin : ∀ r r' ch ch', S r → S r' → r.challenger = some ch → r'.challenger = some ch' →
    dg.text ch.margin = dg.text ch'.margin → ch.margin = ch'.margin
  alpha : ∀ r r' ch ch', S r → S r' → r.challenger = some ch → r'.challenger = some ch' →
    dg.text ch.alpha = dg.text ch'.alpha → ch.alpha = ch'.alpha
  kept : ∀ r r' ch ch', S r → S r' → r.challenger = some ch → r'.challenger = some ch' →
    (dg.sha256 (ch.hashed dg r.ladder)).take 8 = (dg.sha256 (ch'.hashed dg r'.ladder)).take 8 →
    ch.hashed dg r.ladder = ch'.hashed dg r'.ladder

/-- The two routes run the same ladders against each other under the same margin and alpha. -/
def Covered (r r' : Route F) (ch ch' : Challenger F) : Prop :=
  r.ladder = r'.ladder ∧ ch.ladder = ch'.ladder ∧ ch.margin = ch'.margin ∧ ch.alpha = ch'.alpha

/-- Equal fingerprints cover the ladders, the margin and alpha. -/
theorem covered_of_fingerprint {dg : Digest F} {S : Route F → Prop} (h : dg.Separates S)
    {r r' : Route F} {ch ch' : Challenger F} (hr : S r) (hr' : S r')
    (hch : r.challenger = some ch) (hch' : r'.challenger = some ch')
    (heq : ch.fingerprint dg r.ladder = ch'.fingerprint dg r'.ladder) : Covered r r' ch ch' := by
  have hhashed := h.kept r r' ch ch' hr hr' hch hch' (hexEncode_injective heq)
  have hprint := Json.print_injective (String.ofList_injective (utf8_injective hhashed))
  simp only [Challenger.canonical, Value.array.injEq, List.cons.injEq, Value.number.injEq,
    Json.Number.float.injEq, and_true] at hprint
  obtain ⟨hinc, hladder, hmargin, halpha⟩ := hprint
  have hstring : Function.Injective Value.string := fun _ _ => Value.string.inj
  exact ⟨List.map_injective_iff.mpr hstring hinc, List.map_injective_iff.mpr hstring hladder,
    h.margin r r' ch ch' hr hr' hch hch' hmargin, h.alpha r r' ch ch' hr hr' hch hch' halpha⟩

/-- The mode and the gates of a route have no part in its fingerprint. -/
theorem fingerprint_ignores (dg : Digest F) (ch : Challenger F) (mode : ChallengerMode)
    (incumbentLadder : List String) :
    { ch with mode }.fingerprint dg incumbentLadder = ch.fingerprint dg incumbentLadder := rfl

end Firstpass.ConfigFile
