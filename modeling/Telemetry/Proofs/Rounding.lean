/-
# Rounding keeps the order

The nearest code to a quotient does not fall when the quotient grows
(`Format.round_mono`), and a magnitude that a code stands for is rounded to this
code (`Format.round_units`).  These two facts are all that is needed of the
rounding: natural numbers keep their order as numbers of a format
(`Binary.ofNat_le`), a product with a factor of at least one is not less than
the other factor, however it is rounded (`Binary.le_mul`), and powers of a
number of at least one are at least one (`Binary.one_le_pow`).
-/

import Telemetry.Numeric.Binary
import Mathlib.Data.Nat.Log
import Mathlib.Tactic.Ring

namespace Telemetry
namespace Numeric

/-! ### The nearest integer -/

section Nearest

variable {n m d k : Nat}

/-- The nearest quotient is the floor or the one above it, whichever the remainder is nearer
to. -/
theorem nearest_cases (n d : Nat) :
    (nearest n d = n / d ∧ 2 * (n % d) ≤ d) ∨ (nearest n d = n / d + 1 ∧ d ≤ 2 * (n % d)) := by
  unfold nearest
  dsimp only
  split_ifs
  · exact .inl ⟨rfl, by omega⟩
  · exact .inr ⟨rfl, by omega⟩
  · rcases Nat.mod_two_eq_zero_or_one (n / d) with h | h
    · exact .inl ⟨by omega, by omega⟩
    · exact .inr ⟨by omega, by omega⟩

/-- A whole number below a quotient is below the nearest one. -/
theorem le_nearest (hd : 0 < d) (h : k * d ≤ n) : k ≤ nearest n d := by
  have hq : k ≤ n / d := (Nat.le_div_iff_mul_le hd).2 h
  rcases nearest_cases n d with ⟨hn, -⟩ | ⟨hn, -⟩ <;> omega

/-- A whole number above a quotient is above the nearest one. -/
theorem nearest_le (hd : 0 < d) (h : n ≤ k * d) : nearest n d ≤ k := by
  have hq : n / d ≤ k := Nat.div_le_of_le_mul (by rwa [Nat.mul_comm])
  rcases nearest_cases n d with ⟨hn, -⟩ | ⟨hn, hr⟩
  · omega
  · -- a remainder is left over, so the quotient is less than `k`
    have hsplit := Nat.div_add_mod n d
    have hlt : n / d ≠ k := by
      rintro rfl
      rw [Nat.mul_comm] at h
      omega
    omega

/-- A quotient that is whole is its own nearest number. -/
theorem nearest_mul (k : Nat) (hd : 0 < d) : nearest (k * d) d = k :=
  (nearest_le hd le_rfl).antisymm (le_nearest hd le_rfl)

/-- Larger numerators have larger nearest quotients. -/
theorem nearest_mono (d : Nat) (h : n ≤ m) : nearest n d ≤ nearest m d := by
  rcases (Nat.div_le_div_right h : n / d ≤ m / d).lt_or_eq with hq | hq
  · rcases nearest_cases n d with ⟨hn, -⟩ | ⟨hn, -⟩ <;>
      rcases nearest_cases m d with ⟨hm, -⟩ | ⟨hm, -⟩ <;> omega
  · -- the quotients are equal, and so the remainders decide
    have hr : n % d ≤ m % d := by
      have hn := Nat.div_add_mod n d
      have hm := Nat.div_add_mod m d
      rw [hq] at hn
      omega
    unfold nearest
    dsimp only
    rw [hq]
    split_ifs <;> omega

end Nearest

/-! ### The nearest code -/

namespace Format

variable (f : Format) {n m d : Nat}

/-- The exponent of the steps in which codes lie around a quotient. -/
def step (n d : Nat) : Nat := (n / d).log2 - f.fractionBits

/-- Larger numbers are rounded to steps at least as coarse. -/
theorem step_mono (d : Nat) (h : n ≤ m) : f.step n d ≤ f.step m d := by
  unfold step
  rw [Nat.log2_eq_log_two, Nat.log2_eq_log_two]
  exact Nat.sub_le_sub_right (Nat.log_mono_right (Nat.div_le_div_right h)) _

/-- Rounding by its parts: the step that fits the size, the nearest multiple of it, and the
largest finite number as the bound. -/
theorem round_eq (n d : Nat) : f.round n d = min f.top
    (f.step n d * twoPow f.fractionBits + nearest n (d * twoPow (f.step n d))) := rfl

/-- In its steps a quotient is less than twice the leading bit. -/
theorem nearest_step_le (hd : 0 < d) :
    nearest n (d * twoPow (f.step n d)) ≤ 2 * twoPow f.fractionBits := by
  refine nearest_le (Nat.mul_pos hd (twoPow_pos _)) ?_
  have hlog : n / d < 2 ^ (f.step n d + f.fractionBits + 1) :=
    Nat.lt_log2_self.trans_le (Nat.pow_le_pow_right (by decide) (by unfold step; omega))
  calc n ≤ 2 ^ (f.step n d + f.fractionBits + 1) * d := ((Nat.div_lt_iff_lt_mul hd).1 hlog).le
    _ = 2 * twoPow f.fractionBits * (d * twoPow (f.step n d)) := by
      simp only [twoPow, Nat.pow_eq, Nat.pow_add]
      ring

/-- Where the steps are longer than a unit, a quotient has the leading bit. -/
theorem le_nearest_step (hd : 0 < d) (h : 0 < f.step n d) :
    twoPow f.fractionBits ≤ nearest n (d * twoPow (f.step n d)) := by
  refine le_nearest (Nat.mul_pos hd (twoPow_pos _)) ?_
  have hlog : (n / d).log2 = f.fractionBits + f.step n d := by
    unfold step at *
    omega
  have hq : n / d ≠ 0 := by
    intro hq
    rw [hq] at hlog
    simp at hlog
    omega
  have hle := Nat.log2_self_le hq
  rw [hlog] at hle
  calc twoPow f.fractionBits * (d * twoPow (f.step n d))
      = 2 ^ (f.fractionBits + f.step n d) * d := by
        simp only [twoPow, Nat.pow_eq, Nat.pow_add]
        ring
    _ ≤ n := (Nat.le_div_iff_mul_le hd).1 hle

/-- **Rounding keeps the order.** -/
theorem round_mono (hd : 0 < d) (h : n ≤ m) : f.round n d ≤ f.round m d := by
  rw [round_eq, round_eq]
  refine min_le_min_left _ ?_
  rcases (f.step_mono d h).eq_or_lt with hs | hs
  · rw [hs]
    exact Nat.add_le_add_left (nearest_mono _ h) _
  · -- between the two quotients the steps get longer
    calc f.step n d * twoPow f.fractionBits + nearest n (d * twoPow (f.step n d))
        ≤ f.step n d * twoPow f.fractionBits + 2 * twoPow f.fractionBits :=
          Nat.add_le_add_left (f.nearest_step_le hd) _
      _ = (f.step n d + 1) * twoPow f.fractionBits + twoPow f.fractionBits := by ring
      _ ≤ f.step m d * twoPow f.fractionBits + nearest m (d * twoPow (f.step m d)) :=
          Nat.add_le_add (Nat.mul_le_mul_right _ hs) (f.le_nearest_step hd (by omega))

/-- The codes of the least exponent count units; beyond them the leading bit
joins the others, and steps of the exponent double the magnitude. -/
theorem units_cases (c : Nat) : (c < twoPow f.fractionBits ∧ f.units c = c) ∨
    ∃ e m, m < twoPow f.fractionBits ∧ c = (e + 1) * twoPow f.fractionBits + m ∧
      f.units c = (twoPow f.fractionBits + m) * twoPow e := by
  have hm := Nat.mod_lt c (twoPow_pos f.fractionBits)
  have hsplit := Nat.div_add_mod' c (twoPow f.fractionBits)
  by_cases h0 : c / twoPow f.fractionBits = 0
  · rw [h0, Nat.zero_mul, Nat.zero_add] at hsplit
    exact .inl ⟨hsplit ▸ hm, by simp [units, h0, hsplit]⟩
  · obtain ⟨e, he⟩ := Nat.exists_eq_succ_of_ne_zero h0
    exact .inr ⟨e, c % twoPow f.fractionBits, hm, by rw [← hsplit, he]; simp, by simp [units, he]⟩

/-- **Greater codes stand for greater magnitudes.** -/
theorem units_mono {a b : Nat} (h : a ≤ b) : f.units a ≤ f.units b := by
  have hpos := twoPow_pos f.fractionBits
  rcases f.units_cases a with ⟨ha, hua⟩ | ⟨e, m, hm, ha, hua⟩ <;>
    rcases f.units_cases b with ⟨hb, hub⟩ | ⟨e', m', hm', hb, hub⟩ <;> rw [hua, hub]
  · exact h
  · calc a ≤ twoPow f.fractionBits + m' := by omega
      _ ≤ _ := Nat.le_mul_of_pos_right _ (twoPow_pos e')
  · -- `a` has a leading bit, and `b` has none
    have hle : twoPow f.fractionBits ≤ (e + 1) * twoPow f.fractionBits :=
      Nat.le_mul_of_pos_left _ (Nat.succ_pos e)
    omega
  · rcases Nat.lt_trichotomy e e' with he | rfl | he
    · -- the magnitudes of an exponent end where those of the next one begin
      calc (twoPow f.fractionBits + m) * twoPow e
          ≤ (twoPow f.fractionBits * 2) * twoPow e := Nat.mul_le_mul_right _ (by omega)
        _ = twoPow f.fractionBits * twoPow (e + 1) := by rw [twoPow_succ]; ring
        _ ≤ (twoPow f.fractionBits + m') * twoPow e' :=
          Nat.mul_le_mul (Nat.le_add_right _ _) (Nat.pow_le_pow_right (by decide) he)
    · exact Nat.mul_le_mul_right _ (by omega)
    · have hle := Nat.mul_le_mul_right (twoPow f.fractionBits) (show e' + 1 + 1 ≤ e + 1 by omega)
      rw [Nat.succ_mul (e' + 1)] at hle
      omega

/-- **What a code stands for is rounded to this code.** -/
theorem round_units {c : Nat} (hc : c ≤ f.top) (hd : 0 < d) : f.round (f.units c * d) d = c := by
  have hpos := twoPow_pos f.fractionBits
  have hstep : f.step (f.units c * d) d = (f.units c).log2 - f.fractionBits := by
    rw [step, Nat.mul_div_cancel _ hd]
  rw [round_eq, hstep]
  refine (congrArg (min f.top) ?_).trans (Nat.min_eq_right hc)
  -- the units of a number are a small fraction, or a full one times a power of two
  rcases f.units_cases c with ⟨hlt, hu⟩ | ⟨e, m, hm, hcode, hu⟩ <;> rw [hu]
  · -- small numbers are rounded to the smallest step, which is one unit
    have hlog : c.log2 - f.fractionBits = 0 := by
      rcases Nat.eq_zero_or_pos c with rfl | hz
      · simp
      · have hlog := (Nat.log2_lt hz.ne').2 hlt
        omega
    rw [hlog]
    simpa [twoPow] using nearest_mul c hd
  · -- the step is the power of two itself, since the fraction has just as many bits as
    -- there is room for
    have hlog : ((twoPow f.fractionBits + m) * twoPow e).log2 = f.fractionBits + e := by
      refine (Nat.log2_eq_iff (Nat.mul_pos (by omega) (twoPow_pos e)).ne').2 ⟨?_, ?_⟩
      · rw [Nat.pow_add]
        exact Nat.mul_le_mul_right _ (Nat.le_add_right _ _)
      · calc (twoPow f.fractionBits + m) * twoPow e
            < (twoPow f.fractionBits * 2) * twoPow e :=
              Nat.mul_lt_mul_of_pos_right (by omega) (twoPow_pos e)
          _ = 2 ^ (f.fractionBits + e + 1) := by
            simp only [twoPow, Nat.pow_eq, Nat.pow_add]
            ring
    rw [hlog, Nat.add_sub_cancel_left, Nat.mul_right_comm, Nat.mul_assoc,
      nearest_mul _ (Nat.mul_pos hd (twoPow_pos e)), hcode]
    ring

end Format

/-! ### Order and product -/

namespace Binary

variable {f : Format} {x y z : Binary f}

/-- Comparison is the comparison of ranks, and fails where either side has none. -/
theorem le_iff : x.le y = true ↔ ∃ a b, x.rank = some a ∧ y.rank = some b ∧ a ≤ b := by
  unfold le
  split
  · rename_i a b ha hb
    simp [ha, hb]
  · rename_i h
    refine iff_of_false Bool.false_ne_true ?_
    rintro ⟨a, b, ha, hb, -⟩
    exact h a b ha hb

/-- Comparison is transitive. -/
theorem le_trans (h : x.le y = true) (h' : y.le z = true) : x.le z = true := by
  obtain ⟨a, b, hx, hy, hab⟩ := le_iff.1 h
  obtain ⟨b', c, hy', hz, hbc⟩ := le_iff.1 h'
  obtain rfl := Option.some.inj (hy.symm.trans hy')
  exact le_iff.2 ⟨a, c, hx, hz, hab.trans hbc⟩

/-- Numbers that are not negative are in the order of their codes. -/
theorem le_of_code_le {a b : Nat} {ha : a ≤ f.top} {hb : b ≤ f.top} (h : a ≤ b) :
    (signed false a ha).le (signed false b hb) = true :=
  le_iff.2 ⟨_, _, rfl, rfl, Int.ofNat_le.2 (f.units_mono h)⟩

/-- **Natural numbers keep their order.** -/
theorem ofNat_le {m n : Nat} (h : m ≤ n) : (ofNat m : Binary f).le (ofNat n) = true :=
  le_of_code_le (f.round_mono Nat.one_pos (Nat.mul_le_mul_right _ h))

/-- One is a number of 64 bits exactly. -/
theorem rank_one :
    (ofNat 1 : Binary64).rank = some ((twoPow Format.binary64.scale : Nat) : Int) := by
  decide +kernel

/-- A number of at least one has no sign, and its magnitude is at least one. -/
theorem exists_of_one_le {t : Binary64} (h : (ofNat 1 : Binary64).le t = true) :
    ∃ (c : Nat) (hc : c ≤ Format.binary64.top),
      t = signed false c hc ∧ twoPow Format.binary64.scale ≤ Format.binary64.units c := by
  obtain ⟨a, b, ha, hb, hab⟩ := le_iff.1 h
  rw [rank_one] at ha
  obtain rfl := Option.some.inj ha
  cases t with
  | nan => cases hb
  | signed s c hc =>
    have hone := twoPow_pos Format.binary64.scale
    obtain rfl := Option.some.inj hb
    cases s with
    | false =>
      simp only [Bool.false_eq_true, if_false] at hab
      exact ⟨c, hc, rfl, Int.ofNat_le.1 hab⟩
    | true =>
      simp only [if_true] at hab
      omega

/-- **A factor of at least one makes no natural number less**, however the
product is rounded; only the product of zero and infinity is excepted. -/
theorem le_mul (n : Nat) {t : Binary64} (h : (ofNat 1 : Binary64).le t = true)
    (ht : t ≠ infinity false) : (ofNat n : Binary64).le ((ofNat n).mul t) = true := by
  obtain ⟨c, hc, rfl, hunits⟩ := exists_of_one_le h
  have hfinite : c ≠ Format.binary64.top := by
    rintro rfl
    exact ht rfl
  have hpos : c ≠ 0 := by
    rintro rfl
    exact absurd hunits (by decide +kernel)
  show (signed false _ _).le (mul (signed false _ _) _) = true
  rw [mul]
  -- the product is not defined only for zero times infinity, which neither factor allows
  split_ifs with htop h0
  · exact absurd h0 (by
      rcases htop with htop | htop
      · rw [htop]
        exact not_or.2 ⟨by decide +kernel, hpos⟩
      · exact absurd htop hfinite)
  · exact le_of_code_le (Format.round_le_top _ _ _)
  · refine le_of_code_le ?_
    -- the factor itself is a code, so it is its own rounding, and rounding is monotone
    calc Format.binary64.round (n * twoPow Format.binary64.scale) 1
        = Format.binary64.round (Format.binary64.units
            (Format.binary64.round (n * twoPow Format.binary64.scale) 1) *
              twoPow Format.binary64.scale) (twoPow Format.binary64.scale) :=
          (Format.round_units _ (Format.round_le_top _ _ _) (twoPow_pos _)).symm
      _ ≤ _ := Format.round_mono _ (twoPow_pos _) (Nat.mul_le_mul_left _ hunits)

/-- **A product of numbers of at least one is at least one**, infinities
included. -/
theorem one_le_mul {x y : Binary64} (hx : (ofNat 1 : Binary64).le x = true)
    (hy : (ofNat 1 : Binary64).le y = true) : (ofNat 1 : Binary64).le (x.mul y) = true := by
  obtain ⟨c, hc, hone, -⟩ := exists_of_one_le (ofNat_le (le_refl 1))
  obtain ⟨a, ha, rfl, hua⟩ := exists_of_one_le hx
  obtain ⟨b, hb, rfl, hub⟩ := exists_of_one_le hy
  have hpos : ∀ {c : Nat}, twoPow Format.binary64.scale ≤ Format.binary64.units c → c ≠ 0 := by
    rintro c hc rfl
    exact absurd hc (by decide +kernel)
  have hunits : Format.binary64.units c = twoPow Format.binary64.scale := by
    have hrank := rank_one
    rw [hone] at hrank
    exact Int.ofNat.inj (Option.some.inj hrank)
  rw [hone, mul]
  split_ifs with htop hzero
  · exact absurd hzero (not_or.2 ⟨hpos hua, hpos hub⟩)
  · exact le_of_code_le hc
  · refine le_of_code_le ?_
    calc c = Format.binary64.round (Format.binary64.units c * twoPow Format.binary64.scale)
            (twoPow Format.binary64.scale) := (Format.round_units _ hc (twoPow_pos _)).symm
      _ ≤ _ := Format.round_mono _ (twoPow_pos _) (Nat.mul_le_mul (hunits ▸ hua) hub)

/-- A power of a number of at least one is at least one. -/
theorem one_le_mulPow {r x : Binary64} (n : Nat) (hr : (ofNat 1 : Binary64).le r = true)
    (hx : (ofNat 1 : Binary64).le x = true) : (ofNat 1 : Binary64).le (mulPow r x n) = true := by
  have hodd : ∀ {r x : Binary64} {n : Nat}, (ofNat 1 : Binary64).le r = true →
      (ofNat 1 : Binary64).le x = true →
      (ofNat 1 : Binary64).le (if n % 2 = 1 then r.mul x else r) = true := by
    intro r x n hr hx
    split_ifs
    · exact one_le_mul hr hx
    · exact hr
  fun_induction mulPow r x n with
  | case1 r x n r' hn => exact hodd hr hx
  | case2 r x n r' hn ih => exact ih (hodd hr hx) (one_le_mul hx hx)

/-- Powers of a number that is at least one are at least one. -/
theorem one_le_pow {x : Binary64} (hx : (ofNat 1 : Binary64).le x = true) (n : Nat) :
    (ofNat 1 : Binary64).le (x.pow n) = true :=
  one_le_mulPow n (ofNat_le le_rfl) hx

/-- A number of at least one has a whole part. -/
theorem truncate_pos {x : Binary64} (hx : (ofNat 1 : Binary64).le x = true) {limit : Nat}
    (hl : 0 < limit) : 0 < x.truncate limit := by
  obtain ⟨c, hc, rfl, hunits⟩ := exists_of_one_le hx
  rw [truncate]
  split_ifs
  · exact hl
  · exact lt_min hl (Nat.div_pos hunits (twoPow_pos _))

end Binary
end Numeric
end Telemetry
