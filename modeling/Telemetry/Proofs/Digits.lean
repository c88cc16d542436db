/-
# Numbers of a fixed width

A number that is padded with zeros to a width it fits in has exactly as many
digits (`padded_spells`), and from the left the digits are read back as the
number (`readNumber_spells`).

Of two numbers of one width the digits are in the order of the numbers, and what
comes after the digits counts only if the numbers are equal
(`Spells.append_le_append_iff`).  This is why a text of several such numbers is
sorted by the first one that differs.  The texts are compared character by
character, which for ASCII is the order of the bytes, too.
-/

import Telemetry.Text.Quoted
import Mathlib.Data.List.Lex
import Mathlib.Data.String.Basic

namespace Telemetry
namespace Text

/-- Characters that are so many digits of a number. -/
structure Spells (width n : Nat) (cs : List Char) : Prop where
  length_eq : cs.length = width
  isDigit : ∀ c ∈ cs, c.isDigit
  value_eq : Nat.ofDigitChars 10 cs 0 = n

/-- The number of a digit. -/
def digitValue (c : Char) : Nat := c.toNat - '0'.toNat

section Digits

variable {c d : Char}

/-- A digit is worth less than ten. -/
theorem digitValue_lt (h : c.isDigit) : digitValue c < 10 := by
  have hc := Char.isDigit_iff_toNat.1 h
  unfold digitValue
  have hzero : '0'.toNat = 48 := rfl
  have hnine : '9'.toNat = 57 := rfl
  omega

/-- Digits are in the order of their numbers. -/
theorem lt_iff_digitValue_lt (hc : c.isDigit) (hd : d.isDigit) :
    c < d ↔ digitValue c < digitValue d := by
  have hc := Char.isDigit_iff_toNat.1 hc
  have hd := Char.isDigit_iff_toNat.1 hd
  show c.toNat < d.toNat ↔ _
  unfold digitValue
  omega

/-- Digits are told apart by their values. -/
theorem eq_of_digitValue_eq (hc : c.isDigit) (hd : d.isDigit) (h : digitValue c = digitValue d) :
    c = d := by
  have hc := Char.isDigit_iff_toNat.1 hc
  have hd := Char.isDigit_iff_toNat.1 hd
  unfold digitValue at h
  exact Char.toNat_inj.1 (by omega)

end Digits

/-! ### Padding -/

/-- **A padded number is spelled with just as many digits.** -/
theorem padded_spells {width n : Nat} (hwidth : 0 < width) (h : n < 10 ^ width) :
    Spells width n (padded width n).toList := by
  have htext : (padded width n).toList =
      List.replicate (width - (Nat.toDigits 10 n).length) '0' ++ Nat.toDigits 10 n := by
    rw [padded, Nat.toString_eq_ofList_toDigits, String.toList_append, String.toList_ofList,
      String.toList_ofList, String.length_ofList]
  have hlen : (Nat.toDigits 10 n).length ≤ width :=
    (Nat.length_toDigits_le_iff (by decide) hwidth).2 h
  rw [htext]
  refine ⟨?_, fun c hc => ?_, ?_⟩
  · rw [List.length_append, List.length_replicate, Nat.sub_add_cancel hlen]
  · rcases List.mem_append.1 hc with hzero | hdigit
    · rw [List.eq_of_mem_replicate hzero]
      decide
    · exact Nat.isDigit_of_mem_toDigits (by decide) (by decide) hdigit
  · rw [Nat.ofDigitChars_append, Nat.ofDigitChars_replicate_zero, Nat.mul_zero,
      Nat.ofDigitChars_ten_toDigits]

/-! ### Order -/

/-- Lists are compared by their first items, and then by the other ones. -/
theorem cons_le_cons_iff {α : Type} [LinearOrder α] {a b : α} {s t : List α} :
    a :: s ≤ b :: t ↔ a < b ∨ a = b ∧ s ≤ t := by
  rw [← not_lt, ← not_lt (b := s)]
  exact List.cons_le_cons_iff

namespace Spells

variable {width m n : Nat} {c : Char} {cs ds s t : List Char}

/-- The first digit and the other ones. -/
theorem of_cons (h : Spells width n (c :: cs)) :
    c.isDigit ∧ Spells (width - 1) (Nat.ofDigitChars 10 cs 0) cs ∧
      n = 10 ^ (width - 1) * digitValue c + Nat.ofDigitChars 10 cs 0 := by
  have hlen : cs.length = width - 1 := by rw [← h.length_eq, List.length_cons, Nat.add_sub_cancel]
  refine ⟨h.isDigit c (.head cs), ⟨hlen, fun d hd => h.isDigit d (.tail c hd), rfl⟩, ?_⟩
  rw [← h.value_eq, Nat.ofDigitChars_cons, Nat.ofDigitChars_eq_ofDigitChars_zero, hlen]
  simp [digitValue]

/-- A number that fits a width is below the power of ten. -/
theorem lt_pow (h : Spells width n cs) : n < 10 ^ width := by
  induction cs generalizing width n with
  | nil =>
    rw [← h.value_eq, ← h.length_eq]
    decide
  | cons c cs ih =>
    obtain ⟨hdigit, hrest, hn⟩ := h.of_cons
    have hlast := ih hrest
    have hc := digitValue_lt hdigit
    have hwidth : width = width - 1 + 1 := by rw [← h.length_eq, List.length_cons]; rfl
    rw [hwidth, Nat.pow_succ, hn]
    calc 10 ^ (width - 1) * digitValue c + Nat.ofDigitChars 10 cs 0
        < 10 ^ (width - 1) * digitValue c + 10 ^ (width - 1) := Nat.add_lt_add_left hlast _
      _ = 10 ^ (width - 1) * (digitValue c + 1) := (Nat.mul_succ _ _).symm
      _ ≤ 10 ^ (width - 1) * 10 := Nat.mul_le_mul_left _ hc

/-- **Texts that begin with numbers of one width are in the order of the
numbers, and for equal numbers in that of what follows them.** -/
theorem append_le_append_iff (hcs : Spells width m cs) (hds : Spells width n ds) :
    cs ++ s ≤ ds ++ t ↔ m < n ∨ m = n ∧ s ≤ t := by
  induction cs generalizing width m n ds with
  | nil =>
    have hm := hcs.value_eq
    have hn := hds.value_eq
    -- both texts end together, since they have the same width
    obtain rfl : ds = [] := List.eq_nil_of_length_eq_zero (hds.length_eq.trans hcs.length_eq.symm)
    simp [← hm, ← hn]
  | cons c cs ih =>
    cases ds with
    | nil => exact absurd (hds.length_eq.trans hcs.length_eq.symm) (by simp)
    | cons d ds =>
      obtain ⟨hc, hcs', hm⟩ := hcs.of_cons
      obtain ⟨hd, hds', hn⟩ := hds.of_cons
      have hmlt := hcs'.lt_pow
      have hnlt := hds'.lt_pow
      rw [List.cons_append, List.cons_append, cons_le_cons_iff, ih hcs' hds',
        lt_iff_digitValue_lt hc hd]
      set p := 10 ^ (width - 1)
      rcases Nat.lt_trichotomy (digitValue c) (digitValue d) with hlt | heq | hgt
      · -- a smaller leading digit decides, since the rest is worth less than one of its
        -- units
        have hstep : p * digitValue c + p ≤ p * digitValue d :=
          (Nat.mul_succ p _).symm.le.trans (Nat.mul_le_mul_left p hlt)
        exact iff_of_true (.inl hlt) (.inl (by omega))
      · -- equal leading digits leave the decision to the rest
        rw [eq_of_digitValue_eq hc hd heq, hm, hn, heq]
        simp
      · have hstep : p * digitValue d + p ≤ p * digitValue c :=
          (Nat.mul_succ p _).symm.le.trans (Nat.mul_le_mul_left p hgt)
        have hne : c ≠ d := fun he => by rw [he] at hgt; exact hgt.false
        exact iff_of_false (by simp [hne]; omega) (by omega)

end Spells

/-! ### Reading

What is read is taken from the left of a text, and the rest of it is left over. -/

/-- Reads a number of so many digits. -/
def readNumber (width : Nat) (s : List Char) : Option (Nat × List Char) :=
  let digits := s.take width
  if digits.length = width ∧ digits.all Char.isDigit then
    some (Nat.ofDigitChars 10 digits 0, s.drop width)
  else none

/-- Reads a character that must be there. -/
def readMark (c : Char) : List Char → Option (List Char)
  | [] => none
  | d :: s => if d = c then some s else none

/-- Reads a sign. -/
def readSign : List Char → Option (Int × List Char)
  | '+' :: s => some (1, s)
  | '-' :: s => some (-1, s)
  | _ => none

/-- **The digits of a number are read as the number.** -/
theorem readNumber_spells {width n : Nat} {cs : List Char} (h : Spells width n cs)
    (s : List Char) : readNumber width (cs ++ s) = some (n, s) := by
  have htake : (cs ++ s).take width = cs := List.take_left' h.length_eq
  have hdrop : (cs ++ s).drop width = s := List.drop_left' h.length_eq
  simp only [readNumber, htake, hdrop, h.value_eq]
  exact if_pos ⟨h.length_eq, List.all_eq_true.2 h.isDigit⟩

/-- A mark is read off the front of a text. -/
@[simp]
theorem readMark_cons (c : Char) (s : List Char) : readMark c (c :: s) = some s := if_pos rfl

/-- Reads a number and the character after it. -/
def readField (width : Nat) (c : Char) (s : List Char) : Option (Nat × List Char) := do
  let (n, s) ← readNumber width s
  let s ← readMark c s
  return (n, s)

/-- A field and the mark behind it are read back, whatever follows. -/
theorem readField_spells {width n : Nat} {c : Char} {cs : List Char} (h : Spells width n cs)
    (s : List Char) : readField width c (cs ++ c :: s) = some (n, s) := by
  simp [readField, readNumber_spells h]

end Text
end Telemetry
