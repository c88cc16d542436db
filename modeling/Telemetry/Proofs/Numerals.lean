/-
# Numbers are read to their end

A written number has digits before its point, then perhaps a point and more
digits, and then perhaps an exponent.  What stands behind the first digits tells
its kind: with a point or an exponent it is a double, whatever its value is, and
with neither it is a whole number if it fits (`Whole.readNumber`).

A double is computed from at most as many digits as fit into 64 bits.  Digits
that do not fit make the exponent greater instead, and only an exponent that is
not negative can take a number out of range.  Here no digit before the point is
dropped, because there are at most sixteen.  So a number is read to its end, but
for one with a positive exponent, which may be too large
(`Numeral.Sound.readNumber`).
-/

import Telemetry.Attribute.Reader
import Telemetry.Proofs.Digits
import Mathlib.Data.List.TakeWhile

namespace Telemetry

open Numeric

/-! ### Decimal digits -/

namespace Text

/-- A number is spelled by its digits. -/
theorem toDigits_spells (n : Nat) : Spells (Nat.toDigits 10 n).length n (Nat.toDigits 10 n) where
  length_eq := rfl
  isDigit _ h := Nat.isDigit_of_mem_toDigits (by decide) (by decide) h
  value_eq := Nat.ofDigitChars_ten_toDigits

/-- A zero in front stands alone. -/
def Unpadded (cs : List Char) : Prop := cs.head? = some '0' → cs = ['0']

/-- A whole number is written without leading zero. -/
theorem toDigits_unpadded (n : Nat) : Unpadded (Nat.toDigits 10 n) := by
  induction n using Nat.strongRecOn with
  | ind n ih =>
    intro h
    rcases Nat.lt_or_ge n 10 with hlt | hge
    · rw [Nat.toDigits_of_lt_base hlt] at h ⊢
      rw [Option.some.inj h]
    · rw [Nat.toDigits_of_base_le (by decide) hge,
        List.head?_append_of_ne_nil _ Nat.toDigits_ne_nil] at h
      -- all but the last digit are those of a number that is not zero
      have hvalue := (toDigits_spells (n / 10)).value_eq
      rw [ih (n / 10) (by omega) h] at hvalue
      have hzero : n / 10 = 0 := hvalue.symm
      omega

/-- Reading more digits makes a number no smaller. -/
theorem le_ofDigitChars (cs : List Char) (n : Nat) : n ≤ Nat.ofDigitChars 10 cs n := by
  rw [Nat.ofDigitChars_eq_ofDigitChars_zero]
  have hpow : n ≤ 10 ^ cs.length * n := Nat.le_mul_of_pos_left n (Nat.pow_pos (by decide))
  exact hpow.trans (Nat.le_add_right _ _)

end Text

namespace Reader

open Text

/-! ### Reading digits -/

/-- A text that no digit comes first in, so that digits before it end there. -/
def Stops (s : List Char) : Prop := ∀ c ∈ s.head?, c.isDigit = false

section Digits

variable {cs s : List Char} {m k : Nat}

/-- Behind the digits the text goes on. -/
theorem dropWhile_digits (hcs : ∀ c ∈ cs, c.isDigit) (hs : Stops s) :
    (cs ++ s).dropWhile Char.isDigit = s := by
  rw [List.dropWhile_append_of_pos hcs]
  cases s with
  | nil => rfl
  | cons c s => exact List.dropWhile_cons_of_neg (by simpa using hs c rfl)

/-- Where no digit follows nothing is taken. -/
theorem takeDigits_of_stops (hs : Stops s) (m k : Nat) : takeDigits m k s = (m, k, s) := by
  cases s with
  | nil => rfl
  | cons c s => rw [takeDigits, if_neg (by simpa using hs c rfl)]

/-- A digit is taken if the significand has room for it. -/
theorem takeDigits_digit {c : Char} (hc : c.isDigit) (m k : Nat) (s : List Char) :
    takeDigits m k (c :: s) = if 10 * m + digitValue c ≤ maxSignificand then
      takeDigits (10 * m + digitValue c) (k + 1) s else (m, k, c :: s) := by
  rw [takeDigits, if_pos hc, Nat.mul_comm]
  rfl

/-- **Digits whose number fits are all taken.** -/
theorem takeDigits_append (hcs : ∀ c ∈ cs, c.isDigit) (hs : Stops s)
    (hfit : Nat.ofDigitChars 10 cs m ≤ maxSignificand) (k : Nat) :
    takeDigits m k (cs ++ s) = (Nat.ofDigitChars 10 cs m, k + cs.length, s) := by
  induction cs generalizing m k with
  | nil => exact takeDigits_of_stops hs m k
  | cons c cs ih =>
    rw [Nat.ofDigitChars_cons] at hfit ⊢
    have hnext : 10 * m + digitValue c ≤ maxSignificand := (le_ofDigitChars cs _).trans hfit
    rw [List.cons_append, takeDigits_digit (hcs c (.head cs)), if_pos hnext, digitValue,
      ih (fun d hd => hcs d (.tail c hd)) hfit, List.length_cons, Nat.add_right_comm, Nat.add_assoc]

/-- However many digits are taken, the others are passed over. -/
theorem takeDigits_rest (hcs : ∀ c ∈ cs, c.isDigit) (hs : Stops s) (m k : Nat) :
    (takeDigits m k (cs ++ s)).2.2.dropWhile Char.isDigit = s := by
  induction cs generalizing m k with
  | nil =>
    rw [List.nil_append, takeDigits_of_stops hs]
    exact dropWhile_digits (List.forall_mem_nil _) hs
  | cons c cs ih =>
    rw [List.cons_append, takeDigits_digit (hcs c (.head cs))]
    split_ifs
    · exact ih (fun d hd => hcs d (.tail c hd)) _ _
    · exact dropWhile_digits hcs hs

/-- Digits that were taken stay taken. -/
theorem le_taken (m k : Nat) (s : List Char) : k ≤ (takeDigits m k s).2.1 := by
  induction s generalizing m k with
  | nil => exact Nat.le_refl k
  | cons c s ih =>
    by_cases hc : c.isDigit
    · rw [takeDigits_digit hc]
      split_ifs
      · exact (Nat.le_succ k).trans (ih _ _)
      · exact Nat.le_refl k
    · rw [takeDigits, if_neg hc]

end Digits

/-! ### Exponents -/

/-- What may stand behind the digits of a number: nothing, or an exponent with its
sign. -/
inductive Scale where
  | none
  | signed (down : Bool) (digits : List Char)

namespace Scale

/-- The text of an exponent. -/
def chars : Scale → List Char
  | none => []
  | signed down digits => 'e' :: (if down then '-' else '+') :: digits

/-- An exponent has digits, and a negative one is not zero. -/
def Sound : Scale → Prop
  | none => True
  | signed down digits =>
    digits ≠ [] ∧ (∀ c ∈ digits, c.isDigit) ∧ (down → 0 < Nat.ofDigitChars 10 digits 0)

/-- Whether there is a positive exponent. -/
def IsUp : Scale → Prop
  | none => False
  | signed down _ => down = false

/-- An exponent is no digit, so digits end before it. -/
theorem stops (e : Scale) : Stops e.chars := by
  cases e <;> simp [Stops, chars]

/-- An exponent that goes up is written with its plus. -/
theorem IsUp.mem_chars {e : Scale} (h : e.IsUp) : '+' ∈ e.chars := by
  cases e with
  | none => exact h.elim
  | signed down digits =>
    cases h
    exact .tail _ (.head _)

end Scale

/-- How reading ends that used up a text: with a number, or with none because it
is too large. -/
inductive Settles (large : Prop) : Except ReadError (Binary64 × List Char) → Prop
  | number (x : Binary64) : Settles large (.ok (x, []))
  | beyond : large → Settles large (.error .syntactic)

section Exponents

variable {cs : List Char} {exponent : Int} {large : Prop} {e : Scale}

/-- Only an exponent that is not negative takes a number out of range. -/
theorem scaled_cases (negative : Bool) (n : Nat) (exponent : Int) :
    (∃ x, scaled negative n exponent = .ok x) ∨
      0 ≤ exponent ∧ scaled negative n exponent = .error .syntactic := by
  unfold scaled
  dsimp only
  rcases Int.lt_or_le exponent 0 with hneg | hpos
  · exact .inl ⟨_, if_pos hneg⟩
  · rw [if_neg (Int.not_lt.2 hpos)]
    split_ifs <;> simp [hpos]

/-- A scaled number comes out, or it is too large; for that its exponent must not be
negative. -/
theorem scaled_settles (h : 0 ≤ exponent → large) (negative : Bool) (n : Nat) :
    Settles large ((scaled negative n exponent).map fun x => (x, [])) := by
  rcases scaled_cases negative n exponent with ⟨x, hx⟩ | ⟨hexp, herr⟩
  · rw [hx]
    exact .number x
  · rw [herr]
    exact .beyond (h hexp)

/-- A signed exponent is read to its end: it is added to the one of the fraction, or it is
beyond the limit. -/
theorem readExponent_signed (hne : cs ≠ []) (hcs : ∀ c ∈ cs, c.isDigit) (negative : Bool)
    (n : Nat) (exponent : Int) (down : Bool) :
    readExponent negative n exponent ((if down then '-' else '+') :: cs) =
      if exponentLimit ≤ Nat.ofDigitChars 10 cs 0 then
        if n ≠ 0 ∧ !down then .error .syntactic else .ok (.zero negative, [])
      else (scaled negative n (exponent + if down then -(Nat.ofDigitChars 10 cs 0 : Int)
        else Nat.ofDigitChars 10 cs 0)).map fun x => (x, []) := by
  have htake : cs.takeWhile Char.isDigit = cs := List.takeWhile_eq_self_iff.2 hcs
  have hdrop : cs.dropWhile Char.isDigit = [] := List.dropWhile_eq_nil_iff.2 hcs
  have hsize : cs.foldl (fun n d => n * 10 + (d.toNat - 48)) 0 = Nat.ofDigitChars 10 cs 0 := by
    rw [Nat.ofDigitChars_eq_foldl]
    simp only [Nat.mul_comm 10]
    rfl
  cases cs with
  | nil => exact absurd rfl hne
  | cons c cs =>
    have hc := hcs c (.head cs)
    cases down with
    | false =>
      simp only [readExponent, Bool.false_eq_true, if_false, if_true, hc, htake, hdrop, hsize]
      rfl
    | true =>
      simp only [readExponent, if_true, hc, htake, hdrop, hsize]
      rfl

/-- **Digits with an exponent are read to the end.**  Without an exponent the
digits themselves have to be behind the point. -/
theorem readScale_settles (he : e.Sound) (hexp : exponent ≤ 0) (h : e = .none → exponent < 0)
    (negative : Bool) (n : Nat) : Settles e.IsUp (readScale negative n exponent e.chars) := by
  cases e with
  | none => exact scaled_settles (fun hge => absurd (h rfl) (Int.not_lt.2 hge)) negative n
  | signed down digits =>
    obtain ⟨hne, hdigits, hpos⟩ := he
    rw [Scale.chars, readScale, readExponent_signed hne hdigits]
    cases down with
    | false =>
      simp only [Bool.false_eq_true, if_false]
      split_ifs
      · exact .beyond rfl
      · exact .number _
      · exact scaled_settles (fun _ => rfl) negative n
    | true =>
      have hdown := hpos rfl
      simp only [Bool.not_true, Bool.false_eq_true, and_false, if_false, if_true]
      split_ifs
      · exact .number _
      · exact scaled_settles (fun hge => by omega) negative n

/-- **Digits behind a point are read to the end.**  One of them at least is
taken, since there is room for it. -/
theorem readFraction_settles {n : Nat} (he : e.Sound) (hne : cs ≠ []) (hcs : ∀ c ∈ cs, c.isDigit)
    (hfit : 10 * n + 9 ≤ maxSignificand) (negative : Bool) :
    Settles e.IsUp (readFraction negative n 0 (cs ++ e.chars)) := by
  cases cs with
  | nil => exact absurd rfl hne
  | cons c cs =>
    have hc := hcs c (.head cs)
    have hrest := takeDigits_rest hcs e.stops n 0
    have htaken : 1 ≤ (takeDigits n 0 (c :: cs ++ e.chars)).2.1 := by
      have hlt := digitValue_lt hc
      rw [List.cons_append, takeDigits_digit hc, if_pos (by omega)]
      exact le_taken _ 1 _
    rw [List.cons_append] at hrest htaken ⊢
    have hdown : (0 : Int) - (takeDigits n 0 (c :: (cs ++ e.chars))).2.1 < 0 := by omega
    rw [readFraction, if_pos hc]
    dsimp only
    rw [hrest]
    exact readScale_settles he hdown.le (fun _ => hdown) negative _

end Exponents

/-! ### Numbers -/

/-- The digits of a whole number, or those of a number before its point. -/
structure Whole (n : Nat) (cs : List Char) : Prop where
  ne_nil : cs ≠ []
  isDigit : ∀ c ∈ cs, c.isDigit
  value_eq : Nat.ofDigitChars 10 cs 0 = n
  unpadded : Unpadded cs

/-- What a number comes to by what stands behind its first digits. -/
def readTail (negative : Bool) (n : Nat) (s : List Char) : Except ReadError (Value × List Char) :=
  match s with
  | '.' :: rest => (readFraction negative n 0 rest).map fun r => (.double r.1, r.2)
  | 'e' :: _ | 'E' :: _ => (readScale negative n 0 s).map fun r => (.double r.1, r.2)
  | _ => .ok (wholeValue negative n, s)

namespace Whole

variable {n : Nat} {cs s : List Char}

/-- The digits of a number spell it. -/
theorem toDigits (n : Nat) : Whole n (Nat.toDigits 10 n) where
  ne_nil := Nat.toDigits_ne_nil
  isDigit := (toDigits_spells n).isDigit
  value_eq := (toDigits_spells n).value_eq
  unpadded := toDigits_unpadded n

/-- A whole number with few digits is small. -/
theorem lt_pow (h : Whole n cs) {width : Nat} (hlen : cs.length ≤ width) : n < 10 ^ width :=
  have hspells : Spells cs.length n cs := ⟨rfl, h.isDigit, h.value_eq⟩
  hspells.lt_pow.trans_le (Nat.pow_le_pow_right (by decide) hlen)

/-- **What stands behind the first digits of a number decides on it.** -/
theorem readNumber (h : Whole n cs) (hfit : n ≤ maxSignificand) (hs : Stops s)
    (negative : Bool) : readNumber negative (cs ++ s) = readTail negative n s := by
  have htake : takeDigits 0 0 (cs ++ s) = (n, cs.length, s) := by
    have hall := takeDigits_append h.isDigit hs (m := 0) (by rwa [h.value_eq]) 0
    rwa [h.value_eq, Nat.zero_add] at hall
  have hrest : s.dropWhile Char.isDigit = s := dropWhile_digits (List.forall_mem_nil _) hs
  have hdropped : s.takeWhile Char.isDigit = [] := by
    have hsplit := List.takeWhile_append_dropWhile (p := Char.isDigit) (l := s)
    rwa [hrest, List.append_left_eq_self] at hsplit
  cases cs with
  | nil => exact absurd rfl h.ne_nil
  | cons c cs =>
    have hdigit : ¬ (!c.isDigit) = true := by simpa using h.isDigit c (.head cs)
    have hzero : ¬ (c = '0' ∧ (cs ++ s).head?.any Char.isDigit) := by
      rintro ⟨rfl, hany⟩
      obtain rfl : cs = [] := by simpa using h.unpadded rfl
      obtain ⟨d, hd, hdigit⟩ := (Option.any_eq_true ..).1 hany
      simp [hs d hd] at hdigit
    rw [List.cons_append] at htake ⊢
    rw [Reader.readNumber, if_neg hdigit, if_neg hzero]
    simp only [htake, hdropped, hrest, readTail, List.length_nil, if_true]
    split
    case h_4 => simp [*]
    all_goals rfl

end Whole

/-- A number as it is written behind its sign. -/
structure Numeral where
  whole : List Char
  fraction : List Char
  scale : Scale

namespace Numeral

variable {n : Numeral}

/-- What stands behind the digits before the point. -/
def tail (n : Numeral) : List Char :=
  (if n.fraction = [] then [] else '.' :: n.fraction) ++ n.scale.chars

/-- The text of a number. -/
def chars (n : Numeral) : List Char := n.whole ++ n.tail

/-- A number with a point or an exponent, and not too many digits before them. -/
structure Sound (n : Numeral) : Prop where
  whole : ∃ v, Whole v n.whole
  length_le : n.whole.length ≤ 16
  fraction : ∀ c ∈ n.fraction, c.isDigit
  scale : n.scale.Sound
  marked : n.fraction = [] → n.scale ≠ .none

/-- What follows the whole part of a numeral begins with no digit. -/
theorem tail_stops (n : Numeral) : Stops n.tail := by
  unfold tail
  split_ifs
  · exact n.scale.stops
  · simp [Stops]

/-- **A number with a point or an exponent is read to its end as a double**, or it
has a positive exponent and is too large. -/
theorem Sound.readNumber (h : n.Sound) (negative : Bool) :
    ∃ r, Settles n.scale.IsUp r ∧
      Reader.readNumber negative n.chars = r.map fun r => (.double r.1, r.2) := by
  obtain ⟨v, hwhole⟩ := h.whole
  have hlt := hwhole.lt_pow h.length_le
  have hfit : 10 * v + 9 ≤ maxSignificand := by
    simp only [maxSignificand]
    omega
  rw [chars, hwhole.readNumber (by omega) n.tail_stops, tail]
  split_ifs with hfraction
  · have hsettles := readScale_settles h.scale le_rfl
      (fun hnone => absurd hnone (h.marked hfraction)) negative v
    refine ⟨_, hsettles, ?_⟩
    cases hscale : n.scale with
    | none => exact absurd hscale (h.marked hfraction)
    | signed down digits => rfl
  · exact ⟨_, readFraction_settles h.scale hfraction h.fraction hfit negative, rfl⟩

end Numeral
end Reader
end Telemetry
