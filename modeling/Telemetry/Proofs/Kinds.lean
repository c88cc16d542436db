/-
# Values keep their kind in JSON

A value in JSON carries no mark of its kind, so its text must show it.  A truth
value is one of two words, a text is quoted, and a number that is written without
a point and an exponent is a whole number.  For doubles this is a matter of their
layout, which gives each of them a point or an exponent (`exists_numeral`).

So everything but a double is read back as it was, and a double as a double
(`Value.keeps_kind`).  The one exception are doubles that are not finite, for
which JSON has no text: they are all written as `null`, which is no value.
-/

import Telemetry.Proofs.Numerals
import Telemetry.Proofs.Quoting

namespace Telemetry

open Numeric

/-! ### How doubles are written -/

namespace Reader
namespace Numeral

variable {v : Nat} {digits whole fraction : List Char} {p : Int}

/-- Digits on both sides of a point. -/
theorem exists_point (hwhole : Whole v whole) (hlen : whole.length ≤ 16) (hne : fraction ≠ [])
    (hfraction : ∀ c ∈ fraction, c.isDigit) :
    ∃ n : Numeral, n.Sound ∧ n.chars = whole ++ '.' :: fraction := by
  refine ⟨⟨whole, fraction, .none⟩,
    ⟨⟨v, hwhole⟩, hlen, hfraction, trivial, fun h => absurd h hne⟩, ?_⟩
  rw [chars, tail, if_neg hne, Scale.chars, List.append_nil]

/-- The point is in front of the digits, or of zeros before them. -/
theorem exists_before (h : Whole v digits) (k : Nat) :
    ∃ n : Numeral, n.Sound ∧ n.chars = '0' :: '.' :: (List.replicate k '0' ++ digits) := by
  refine exists_point (Whole.toDigits 0) (by decide) ?_ ?_
  · exact List.append_ne_nil_of_right_ne_nil _ h.ne_nil
  · simpa [or_imp, forall_and] using h.isDigit

/-- The point is between the digits. -/
theorem exists_between (h : Whole v digits) {k : Nat} (hpos : 0 < k) (hk : k ≤ 16)
    (hlt : k < digits.length) :
    ∃ n : Numeral, n.Sound ∧ n.chars = digits.take k ++ '.' :: digits.drop k := by
  have hlen : (digits.take k).length = k := List.length_take_of_le hlt.le
  have hunpadded : Text.Unpadded (digits.take k) := fun hhead => by
    rw [List.head?_take, if_neg hpos.ne'] at hhead
    rw [h.unpadded hhead, List.length_singleton] at hlt
    omega
  refine exists_point ⟨?_, fun c hc => h.isDigit c (List.mem_of_mem_take hc), rfl, hunpadded⟩
    (hlen.le.trans hk) ?_ fun c hc => h.isDigit c (List.mem_of_mem_drop hc)
  · exact List.length_pos_iff.1 (hpos.trans_eq hlen.symm)
  · exact List.length_pos_iff.1 (by rw [List.length_drop]; omega)

/-- The point is behind the digits and some zeros, and another zero follows it. -/
theorem exists_behind (h : Whole v digits) {k : Nat} (hk : digits.length + k ≤ 16)
    (hzero : digits = ['0'] → k = 0) :
    ∃ n : Numeral, n.Sound ∧ n.chars = digits ++ List.replicate k '0' ++ ['.', '0'] := by
  have hunpadded : Text.Unpadded (digits ++ List.replicate k '0') := fun hhead => by
    rw [List.head?_append_of_ne_nil _ h.ne_nil] at hhead
    have hdigits := h.unpadded hhead
    rw [hdigits, hzero hdigits]
    rfl
  refine exists_point ⟨List.append_ne_nil_of_left_ne_nil h.ne_nil _, ?_, rfl, hunpadded⟩ ?_
    (List.cons_ne_nil _ _) (by simp)
  · simpa [or_imp, forall_and] using h.isDigit
  · rwa [List.length_append, List.length_replicate]

/-- The layouts without exponent write a numeral, wherever the point stands. -/
theorem exists_positional (h : Whole v digits) (hp : p ≤ 16) (hzero : digits = ['0'] → p = 1) :
    ∃ n : Numeral, n.Sound ∧ n.chars = (Layout.json64.positionalText digits p).toList := by
  unfold Layout.positionalText
  split_ifs with hlow hwhole hpoint
  · obtain ⟨n, hn, hchars⟩ := exists_before h (-p).toNat
    exact ⟨n, hn, hchars.trans (by simp [Layout.zeros, String.toList_append])⟩
  · obtain ⟨n, hn, hchars⟩ := exists_behind h (k := p.toNat - digits.length) (by omega)
      fun hdigits => by rw [hzero hdigits, hdigits]; rfl
    exact ⟨n, hn, hchars.trans (by simp [Layout.zeros, String.toList_append])⟩
  · exact absurd rfl hpoint
  · obtain ⟨n, hn, hchars⟩ := exists_between h (k := p.toNat) (by omega) (by omega) (by omega)
    exact ⟨n, hn, hchars.trans (by simp [String.toList_append])⟩

/-- A whole number is written with its sign and its decimal digits. -/
theorem toString_toList (k : Int) : (toString k).toList =
    (if k < 0 then ['-'] else []) ++ Nat.toDigits 10 k.natAbs := by
  rw [Int.toString_eq_repr, Int.repr_eq_if]
  rcases Int.lt_or_le k 0 with hneg | hpos
  · have habs : (-k).toNat = k.natAbs := by omega
    rw [if_neg (Int.not_le.2 hneg), if_pos hneg, habs, String.toList_append, Nat.toList_repr]
    rfl
  · have habs : k.toNat = k.natAbs := by omega
    rw [if_pos hpos, if_neg (Int.not_lt.2 hpos), habs, Nat.toList_repr]
    rfl

/-- The point is behind the first digit if there are more of them. -/
theorem exists_exponent (h : Whole v digits) (hp : p < -4 ∨ 16 < p) :
    ∃ n : Numeral, n.Sound ∧ n.chars = (Layout.json64.exponentText digits p).toList := by
  -- a single digit stands before the point, all others behind it
  obtain ⟨c, cs, rfl⟩ := List.exists_cons_of_ne_nil h.ne_nil
  have hfirst : Whole _ [c] :=
    ⟨List.cons_ne_nil c [], by simpa using h.isDigit c (.head cs), rfl, by simp [Text.Unpadded]⟩
  have hexponent := Whole.toDigits (p - 1).natAbs
  have hscale : (Scale.signed (decide (p < 0)) (Nat.toDigits 10 (p - 1).natAbs)).Sound :=
    ⟨hexponent.ne_nil, hexponent.isDigit, fun _ => by rw [hexponent.value_eq]; omega⟩
  have hfraction : (if cs.isEmpty then "" else "." ++ String.ofList cs).toList =
      if cs = [] then [] else '.' :: cs := by
    cases cs <;> simp
  have hsign : (if Layout.json64.plus && decide (1 ≤ p) then "+" else "").toList ++
      (toString (p - 1)).toList =
      (if decide (p < 0) then '-' else '+') :: Nat.toDigits 10 (p - 1).natAbs := by
    -- the layout writes the plus itself, a minus comes with the number
    rw [toString_toList]
    rcases hp with hlow | hhigh
    · have hone : ¬ 1 ≤ p := by omega
      have hneg : p - 1 < 0 ∧ p < 0 := by omega
      simp [hone, hneg]
    · have hone : 1 ≤ p := by omega
      have hneg : ¬ p - 1 < 0 ∧ ¬ p < 0 := by omega
      simp [hone, hneg, Layout.json64]
  refine ⟨⟨[c], cs, .signed (decide (p < 0)) (Nat.toDigits 10 (p - 1).natAbs)⟩,
    ⟨⟨_, hfirst⟩, by simp, fun d hd => h.isDigit d (.tail c hd), hscale, by simp⟩, ?_⟩
  rw [Layout.exponentText]
  simp only [String.toList_append, String.toList_ofList, List.append_assoc, hsign, List.drop_one,
    List.tail_cons, hfraction]
  simp [chars, tail, Scale.chars]

/-- **A decimal is written with a point or an exponent.** -/
theorem exists_numeral (d : Decimal) :
    ∃ n : Numeral, n.Sound ∧ n.chars = (Layout.json64.decimalText d).toList := by
  have hdigits : (toString d.digits).toList = Nat.toDigits 10 d.digits := Nat.toList_repr
  have hwhole := Whole.toDigits d.digits
  have hzero (h : Nat.toDigits 10 d.digits = ['0']) : d.digits = 0 := by
    rw [← hwhole.value_eq, h]
    rfl
  rw [Layout.decimalText, hdigits]
  generalize hp : (if d.digits = 0 then (1 : Int) else d.pointPosition) = p
  have hrange : Layout.json64.isPositional p = true ↔ -4 ≤ p ∧ p ≤ 16 := by
    simp [Layout.isPositional, Layout.json64]
  split_ifs with hpos
  · exact exists_positional hwhole (hrange.1 hpos).2 fun h => by rw [← hp, if_pos (hzero h)]
  · rw [hrange] at hpos
    exact exists_exponent hwhole (by omega)

end Numeral

/-- A finite double is written as a numeral with its sign. -/
theorem exists_text {x : Binary64} (h : x.isFinite = true) :
    ∃ (negative : Bool) (n : Numeral), n.Sound ∧
      (Layout.json64.text x).toList = (if negative then ['-'] else []) ++ n.chars := by
  cases x with
  | nan => cases h
  | signed s c hc =>
    have hlt : c < Format.binary64.top := by simpa [Binary.isFinite] using h
    obtain ⟨n, hn, hchars⟩ := Numeral.exists_numeral (Format.binary64.shortest .toEven c)
    refine ⟨s, n, hn, ?_⟩
    rw [Layout.text, if_neg hlt.ne, String.toList_append, hchars]
    cases s <;> rfl

/-! ### Reading a value -/

section Entry

variable {fuel depth : Nat} {c : Char} {s : List Char}

/-- A quote begins a text. -/
theorem readValue_quote : readValue (fuel + 1) depth ('"' :: s) =
    (readText (s.length + 1) [] s).map fun r => (some (.text r.1), r.2) := by
  rw [readValue]
  rfl

/-- A minus begins a number below zero. -/
theorem readValue_minus : readValue (fuel + 1) depth ('-' :: s) =
    (readNumber true s).map fun r => (some r.1, r.2) := by
  rw [readValue]
  rfl

/-- A digit begins a number. -/
theorem readValue_digit (h : c.isDigit) : readValue (fuel + 1) depth (c :: s) =
    (readNumber false (c :: s)).map fun r => (some r.1, r.2) := by
  have hne (d : Char) (hd : d.isDigit = false) : c ≠ d := by
    rintro rfl
    simp [h] at hd
  rw [readValue]
  simp [skipBlanks, isBlank, hne, h]
  rfl

/-- A number is read behind its sign. -/
theorem readValue_number {digits : List Char} {n : Nat} (h : Whole n digits) (negative : Bool) :
    readValue (fuel + 1) depth ((if negative then ['-'] else []) ++ (digits ++ s)) =
      (readNumber negative (digits ++ s)).map fun r => (some r.1, r.2) := by
  obtain ⟨c, cs, rfl⟩ := List.exists_cons_of_ne_nil h.ne_nil
  cases negative with
  | false => exact readValue_digit (h.isDigit c (.head cs))
  | true => exact readValue_minus

/-- A text of one value and nothing else stands for this value. -/
theorem read_of_ok {s : String} {v : Value}
    (h : ∀ fuel, readValue (fuel + 1) depthLimit s.toList = .ok (some v, [])) : read s = .ok v := by
  rw [read]
  simp only [h]
  rfl

/-- A text is refused if reading a value from it fails with any fuel. -/
theorem read_of_error {s : String} {e : ReadError}
    (h : ∀ fuel, readValue (fuel + 1) depthLimit s.toList = .error e) : read s = .error e := by
  rw [read]
  simp only [h]
  rfl

end Entry

/-! ### The kinds of values -/

/-- **A quoted text is read back.** -/
theorem read_quoted (s : String) : read (Text.quoted s) = .ok (.text s) := by
  refine read_of_ok fun fuel => ?_
  have hchars : (Text.quoted s).toList = '"' :: (s.toList.flatMap Text.jsonChar ++ ['"']) := by
    rw [Text.quoted, Text.quotedBy, String.toList_ofList]
    rfl
  have hle := length_le_flatMap_jsonChar s.toList
  rw [hchars, readValue_quote, readText_quoted (by rw [List.length_append]; omega),
    List.reverse_nil, List.nil_append, String.ofList_toList]
  rfl

/-- A machine word is read back from its sign and its size. -/
theorem wholeValue_toInt (n : Int64) :
    wholeValue (decide (n.toInt < 0)) n.toInt.natAbs = .int n := by
  have hlo := n.le_toInt
  have hhi := n.toInt_lt
  unfold wholeValue
  rcases Int.lt_or_le n.toInt 0 with hneg | hpos
  · have habs : -(n.toInt.natAbs : Int) = n.toInt := by omega
    have hfits : ¬ (n.toInt.natAbs = 0 ∨ wholeLimit < n.toInt.natAbs) := by
      simp only [wholeLimit]
      omega
    rw [if_pos (decide_eq_true hneg), if_neg hfits, habs, Int64.ofInt_toInt]
  · have habs : (n.toInt.natAbs : Int) = n.toInt := by omega
    have hfits : n.toInt.natAbs < wholeLimit := by
      simp only [wholeLimit]
      omega
    rw [if_neg (by simpa using hpos), if_pos hfits, ← Int64.ofInt_eq_ofNat, habs,
      Int64.ofInt_toInt]

/-- **A whole number of 64 bits is read back.** -/
theorem read_toString (n : Int64) : read (toString n.toInt) = .ok (.int n) := by
  have hlo := n.le_toInt
  have hhi := n.toInt_lt
  have hfit : n.toInt.natAbs ≤ maxSignificand := by
    simp only [maxSignificand]
    omega
  have hwhole := Whole.toDigits n.toInt.natAbs
  have hchars : (toString n.toInt).toList =
      (if decide (n.toInt < 0) then ['-'] else []) ++ (Nat.toDigits 10 n.toInt.natAbs ++ []) := by
    rw [Numeral.toString_toList, List.append_nil]
    simp
  refine read_of_ok fun fuel => ?_
  rw [hchars, readValue_number hwhole, hwhole.readNumber hfit (by simp [Stops]),
    ← wholeValue_toInt n]
  rfl

/-- **A finite double is read as a double**, or it has a positive exponent and is
refused as too large. -/
theorem read_finite {x : Binary64} (h : x.isFinite = true) :
    (∃ y, read (Layout.json64.text x) = .ok (.double y)) ∨
      '+' ∈ (Layout.json64.text x).toList ∧ read (Layout.json64.text x) = .error .syntactic := by
  obtain ⟨negative, n, hn, hchars⟩ := exists_text h
  obtain ⟨v, hwhole⟩ := hn.whole
  obtain ⟨r, hr, hread⟩ := hn.readNumber negative
  have hvalue (fuel : Nat) : readValue (fuel + 1) depthLimit (Layout.json64.text x).toList =
      r.map fun r => (some (.double r.1), r.2) := by
    rw [hchars, Numeral.chars, readValue_number hwhole, ← Numeral.chars, hread]
    cases r <;> rfl
  cases hr with
  | number y => exact .inl ⟨y, read_of_ok hvalue⟩
  | beyond hup =>
    have hplus : '+' ∈ n.chars := List.mem_append_right _ (List.mem_append_right _ hup.mem_chars)
    exact .inr ⟨hchars ▸ List.mem_append_right _ hplus, read_of_error hvalue⟩

/-- The word for no value is read as no value. -/
theorem read_null : read "null" = .error .data := by
  have hvalue (fuel : Nat) : readValue (fuel + 1) depthLimit "null".toList = .ok (none, []) := by
    rw [readValue]
    rfl
  rw [read]
  simp only [hvalue]
  rfl

/-- The words for truth values are read as such. -/
theorem read_word (b : Bool) : read (if b then "true" else "false") = .ok (.bool b) := by
  cases b <;>
    · refine read_of_ok fun fuel => ?_
      rw [readValue]
      rfl

end Reader

namespace Value

open Reader

/-- The kinds of values. -/
inductive Kind where
  | bool
  | int
  | double
  | text
  deriving DecidableEq

/-- The kind of a value. -/
def kind : Value → Kind
  | bool _ => .bool
  | int _ => .int
  | double _ => .double
  | text _ => .text

/-- What a value written as JSON is read as. -/
structure KeepsKind (v : Value) : Prop where
  /-- What is not a double is read back as it was. -/
  exact : v.kind ≠ .double → read v.toJson.compact = .ok v
  /-- A finite double is read as a double, unless it has a positive exponent and
  is refused as too large. -/
  finite : ∀ x, v = double x → x.isFinite = true →
    (∃ y, read v.toJson.compact = .ok (double y)) ∨
      '+' ∈ v.toJson.compact.toList ∧ read v.toJson.compact = .error .syntactic
  /-- Other doubles have no text of their own, and what they are written as is no
  value. -/
  infinite : ∀ x, v = double x → x.isFinite = false →
    v.toJson.compact = "null" ∧ read v.toJson.compact = .error .data
  null : v.toJson.compact = "null" → ∃ x, v = double x ∧ x.isFinite = false
  /-- Values of two kinds have no text in common. -/
  apart : ∀ w : Value, w.toJson.compact = v.toJson.compact → w.kind = v.kind

/-- A finite double is written in the layout of JSON. -/
theorem compact_double {x : Binary64} (h : x.isFinite = true) :
    (double x).toJson.compact = Layout.json64.text x := if_pos h

/-- Infinities and what is not a number have no form in JSON. -/
theorem compact_infinite {x : Binary64} (h : x.isFinite = false) :
    (double x).toJson.compact = "null" := by
  simp [toJson, Json.compact, Json.scalarText, h]

/-- Values other than doubles are read back as they were written. -/
theorem read_compact {v : Value} (h : v.kind ≠ .double) : read v.toJson.compact = .ok v := by
  cases v with
  | bool b => exact read_word b
  | int n => exact read_toString n
  | double x => exact absurd rfl h
  | text s => exact read_quoted s

/-- A double is read as a double, or refused for one of two reasons. -/
theorem read_double (x : Binary64) : (∃ y, read (double x).toJson.compact = .ok (double y)) ∨
    read (double x).toJson.compact = .error (if x.isFinite then .syntactic else .data) := by
  cases hx : x.isFinite with
  | false =>
    rw [compact_infinite hx]
    exact .inr read_null
  | true =>
    rw [compact_double hx]
    exact (read_finite hx).imp_right And.right

/-- What is read from the text of a value is of its kind. -/
theorem kind_of_read {v w : Value} (h : read v.toJson.compact = .ok w) : v.kind = w.kind := by
  by_cases hv : v.kind = .double
  · cases v with
    | double x =>
      rcases read_double x with ⟨y, hy⟩ | herr
      · cases hy.symm.trans h
        rfl
      · cases herr.symm.trans h
    | _ => cases hv
  · cases (read_compact hv).symm.trans h
    rfl

/-- Only doubles that are not finite are written as something that is no value. -/
theorem infinite_of_read {v : Value} (h : read v.toJson.compact = .error .data) :
    ∃ x, v = double x ∧ x.isFinite = false := by
  cases v with
  | double x =>
    refine ⟨x, rfl, ?_⟩
    by_contra hx
    rw [Bool.not_eq_false] at hx
    rcases read_double x with ⟨y, hy⟩ | herr
    · cases hy.symm.trans h
    · rw [if_pos hx] at herr
      cases herr.symm.trans h
  | _ => cases (read_compact (by simp [kind])).symm.trans h

/-- **Values keep their kind in JSON.** -/
theorem keeps_kind (v : Value) : v.KeepsKind where
  exact := read_compact
  finite := by
    rintro x rfl hx
    rw [compact_double hx]
    exact read_finite hx
  infinite := by
    rintro x rfl hx
    rw [compact_infinite hx]
    exact ⟨rfl, read_null⟩
  null h := infinite_of_read (h ▸ read_null)
  apart w h := by
    by_cases hw : w.kind = .double
    · by_contra hne
      have hv : v.kind ≠ .double := fun hv => hne (hw.trans hv.symm)
      exact hne (kind_of_read (h ▸ read_compact hv))
    · exact (kind_of_read (h ▸ read_compact hw)).symm

/-- A word in quotes is a text. -/
example : read "true" = .ok (.bool true) ∧ read "\"true\"" = .ok (.text "true") := by
  cbv

end Value
end Telemetry
