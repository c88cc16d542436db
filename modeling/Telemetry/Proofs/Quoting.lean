/-
# Quoted texts are read back

JSON escapes a text character by character: most characters stand for themselves,
a few have a short escape, and the other control characters are written by their
codes.  The reader takes one character of the text at a time, escaped or not, so
each character comes back from what was written for it (`readText_jsonChar`), and
the text from all of them up to the closing quote (`readText_quoted`).
-/

import Telemetry.Attribute.Reader
import Mathlib.Tactic.SplitIfs

namespace Telemetry
namespace Reader

open Text

/-! ### Codes -/

/-- A hex digit is read back. -/
theorem hexValue?_hexDigit {n : Nat} (h : n < 16) : hexValue? (hexDigit n) = some n := by
  revert n
  decide

/-- A text has no more characters than bytes. -/
theorem length_le_byteCount (s : List Char) : s.length ≤ byteCount s := by
  induction s with
  | nil => exact Nat.le_refl 0
  | cons c s ih =>
    have hc := c.utf8Size_pos
    have hcons : byteCount (c :: s) = c.utf8Size + byteCount s := rfl
    rw [hcons, List.length_cons]
    omega

/-- Four hex digits are read as one number. -/
theorem readHex_cons {a b c d : Char} {w x y z : Nat} (ha : hexValue? a = some w)
    (hb : hexValue? b = some x) (hc : hexValue? c = some y) (hd : hexValue? d = some z)
    (s : List Char) :
    readHex (a :: b :: c :: d :: s) = .ok (((w * 16 + x) * 16 + y) * 16 + z, s) := by
  have hbytes := length_le_byteCount (a :: b :: c :: d :: s)
  simp only [List.length_cons] at hbytes
  rw [readHex, if_neg (by omega)]
  simp only [ha, hb, hc, hd]

/-- **Four digits are read as the number they were written for.** -/
theorem readHex_hex {n : Nat} (h : n < 65536) (s : List Char) :
    readHex (hex 4 n ++ s) = .ok (n, s) := by
  have hdigits : hex 4 n ++ s = hexDigit (n / 16 / 16 / 16 % 16) :: hexDigit (n / 16 / 16 % 16) ::
      hexDigit (n / 16 % 16) :: hexDigit (n % 16) :: s := rfl
  have hvalue (m : Nat) : hexValue? (hexDigit (m % 16)) = some (m % 16) :=
    hexValue?_hexDigit (Nat.mod_lt m (by decide))
  rw [hdigits, readHex_cons (hvalue _) (hvalue _) (hvalue _) (hvalue _)]
  congr 2
  omega

/-- A control character is no part of a surrogate pair. -/
theorem readUnicode_hex {c : Char} (h : c.toNat < 0x20) (s : List Char) :
    readUnicode (hex 4 c.toNat ++ s) = .ok (c, s) := by
  have hsingle : c.toNat < 0xd800 ∨ 0xdfff < c.toNat := by omega
  rw [readUnicode, readHex_hex (by omega)]
  simp only [bind, Except.bind, if_pos hsingle, Char.ofNat_toNat]

/-! ### Characters -/

section Characters

variable {fuel : Nat} {done s t : List Char} {c : Char}

/-- A character that needs no escape is read as itself. -/
theorem readText_of_plain (hquote : c ≠ '"') (hslash : c ≠ '\\') (hcontrol : ¬ c.toNat < 0x20)
    (s : List Char) : readText (fuel + 1) done (c :: s) = readText fuel (c :: done) s := by
  rw [readText, if_neg hquote, if_neg hslash, if_neg hcontrol]

/-- An escape is read as the character that it stands for. -/
theorem readText_of_escape (h : readEscape s = .ok (c, t)) :
    readText (fuel + 1) done ('\\' :: s) = readText fuel (c :: done) t := by
  rw [readText, if_neg (by decide), if_pos rfl, h]
  rfl

/-- **What is written for a character is read as this character.** -/
theorem readText_jsonChar (c : Char) (s : List Char) :
    readText (fuel + 1) done (jsonChar c ++ s) = readText fuel (c :: done) s := by
  unfold jsonChar
  split_ifs with hquote hslash hn hr ht hb hf hcontrol
  case neg => exact readText_of_plain hquote hslash hcontrol s
  rotate_right
  · exact readText_of_escape (readUnicode_hex hcontrol s)
  all_goals
    -- a short escape names its character
    subst c
    exact readText_of_escape rfl

end Characters

/-! ### Texts -/

/-- No character is written as nothing. -/
theorem jsonChar_ne_nil (c : Char) : jsonChar c ≠ [] := by
  unfold jsonChar
  split_ifs <;> exact List.cons_ne_nil _ _

/-- A text is not longer than what is written for it. -/
theorem length_le_flatMap_jsonChar (s : List Char) : s.length ≤ (s.flatMap jsonChar).length := by
  induction s with
  | nil => exact Nat.le_refl 0
  | cons c s ih =>
    have hc := List.length_pos_iff.2 (jsonChar_ne_nil c)
    rw [List.flatMap_cons, List.length_append, List.length_cons]
    omega

/-- **A quoted text is read up to its closing quote.** -/
theorem readText_quoted {fuel : Nat} {done s : List Char} (hfuel : s.length < fuel)
    (rest : List Char) : readText fuel done (s.flatMap jsonChar ++ '"' :: rest) =
      .ok (String.ofList (done.reverse ++ s), rest) := by
  induction s generalizing fuel done with
  | nil =>
    obtain ⟨fuel, rfl⟩ := Nat.exists_eq_succ_of_ne_zero (Nat.ne_of_gt hfuel)
    rw [List.flatMap_nil, List.nil_append, readText, if_pos rfl, List.append_nil]
  | cons c s ih =>
    obtain ⟨fuel, rfl⟩ := Nat.exists_eq_succ_of_ne_zero (Nat.ne_of_gt (Nat.zero_lt_of_lt hfuel))
    rw [List.flatMap_cons, List.append_assoc, readText_jsonChar,
      ih (Nat.lt_of_succ_lt_succ hfuel), List.reverse_cons, List.append_assoc]
    rfl

end Reader
end Telemetry
