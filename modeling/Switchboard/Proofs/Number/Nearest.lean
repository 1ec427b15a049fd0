import Mathlib.Algebra.Order.Field.Power
import Mathlib.Data.Nat.Cast.Order.Field
import Mathlib.Data.Rat.Cast.Order
import Mathlib.Tactic.FieldSimp
import Mathlib.Tactic.Linarith
import Mathlib.Tactic.NormNum
import Mathlib.Tactic.Positivity
import Mathlib.Tactic.Ring
import Switchboard.Json.Record

/-!
# A whole number as a number of 32 bits

A number of 32 bits is written with its shortest digits, and what is read of these is a number
of 64 bits first, which is rounded to 32 bits a second time. For a number that was whole when
it came, the detour changes nothing (`Json.real32?_again`).

The numbers are compared in ℚ. A number is what a magnitude is rounded to if it is the nearest
one of its format (`Binary.IsNearest`, `BinaryFormat.round_eq`), and a decimal is read back as
the number under the same condition (`Binary.readsBack_iff`). So it is enough that the way
over 64 bits is exact : below `2 ^ 64` the shortest decimal is a whole number again, since the
search ends at the latest on the grid of the whole numbers or on one that a power of ten makes
coarser (`Binary.exists_onGrid_of_whole`), and it has no more binary digits than 64 bits hold
(`Binary.shortest_whole`).
-/

namespace Switchboard

/-! ## Quotients -/

theorem zpow_eq_div {b : ℚ} (hb : b ≠ 0) (e : Int) : b ^ e = b ^ e.toNat / b ^ (-e).toNat := by
  rw [← zpow_natCast, ← zpow_natCast, ← zpow_sub₀ hb]
  congr 1
  omega

theorem scaleByTwo_ratio (num : Nat) {den : Nat} (hd : 0 < den) (e : Int) :
    0 < (scaleByTwo num den e).2 ∧
      ((scaleByTwo num den e).1 : ℚ) / (scaleByTwo num den e).2 = num / den * 2 ^ e := by
  refine ⟨Nat.mul_pos hd (Nat.pow_pos (by omega)), ?_⟩
  simp only [scaleByTwo, Nat.pow_eq, Nat.cast_mul, Nat.cast_pow, Nat.cast_ofNat,
    zpow_eq_div two_ne_zero e]
  field_simp

theorem scaleByTen_ratio (num : Nat) {den : Nat} (hd : 0 < den) (e : Int) :
    0 < (scaleByTen num den e).2 ∧
      ((scaleByTen num den e).1 : ℚ) / (scaleByTen num den e).2 = num / den * 10 ^ e := by
  refine ⟨Nat.mul_pos hd (Nat.pow_pos (by omega)), ?_⟩
  simp only [scaleByTen, Nat.pow_eq, Nat.cast_mul, Nat.cast_pow, Nat.cast_ofNat,
    zpow_eq_div (by norm_num : (10 : ℚ) ≠ 0) e]
  field_simp

/-- The whole number that is nearest to a quotient, or the even one of two. -/
theorem roundHalfEven_eq {num den m : Nat} (hd : 0 < den)
    (near : |(num : ℚ) / den - m| ≤ 1 / 2) (tie : m % 2 = 1 → |(num : ℚ) / den - m| < 1 / 2) :
    roundHalfEven num den = m := by
  have hd' : (0 : ℚ) < den := by exact_mod_cast hd
  -- without fractions
  have clear : (num : ℚ) / den - m = (num - m * den) / den := by field_simp
  rw [clear, abs_div, abs_of_pos hd', div_le_iff₀ hd', abs_le] at near
  rw [clear, abs_div, abs_of_pos hd', div_lt_iff₀ hd', abs_lt] at tie
  have low : 2 * (m * den) ≤ 2 * num + den := by
    have : 2 * ((m : ℚ) * den) ≤ 2 * num + den := by linarith [near.1]
    exact_mod_cast this
  have high : 2 * num ≤ 2 * (m * den) + den := by
    have : 2 * (num : ℚ) ≤ 2 * (m * den) + den := by linarith [near.2]
    exact_mod_cast this
  have strict : m % 2 = 1 → 2 * (m * den) < 2 * num + den ∧ 2 * num < 2 * (m * den) + den := by
    intro odd
    obtain ⟨h1, h2⟩ := tie odd
    have h1 : 2 * ((m : ℚ) * den) < 2 * num + den := by linarith
    have h2 : 2 * (num : ℚ) < 2 * (m * den) + den := by linarith
    exact ⟨by exact_mod_cast h1, by exact_mod_cast h2⟩
  have parts : den * (num / den) + num % den = num := Nat.div_add_mod num den
  have rest : num % den < den := Nat.mod_lt _ hd
  unfold roundHalfEven
  generalize num / den = q at *
  generalize num % den = r at *
  have comm : den * q = q * den := Nat.mul_comm ..
  have hm : m = q ∨ m = q + 1 := by
    rcases Nat.lt_or_ge m q with h | h
    · have := Nat.mul_le_mul_right den (show m + 1 ≤ q from h)
      rw [Nat.add_mul] at this
      omega
    · rcases Nat.lt_or_ge (q + 1) m with h' | h'
      · have := Nat.mul_le_mul_right den (show q + 2 ≤ m from h')
        rw [Nat.add_mul] at this
        omega
      · omega
  rcases hm with rfl | rfl
  · simp only []
    split_ifs <;> omega
  · rw [Nat.add_mul] at low high strict
    simp only []
    split_ifs <;> omega

/-! ## Full mantissas -/

theorem log2_bounds {n : Nat} (h : 0 < n) : (2 : ℚ) ^ (n.log2 : Int) ≤ n ∧
    (n : ℚ) < 2 ^ ((n.log2 : Int) + 1) := by
  have low := Nat.log2_self_le (Nat.pos_iff_ne_zero.mp h)
  have high := Nat.lt_log2_self (n := n)
  constructor
  · rw [zpow_natCast]
    exact_mod_cast low
  · have : (n.log2 : Int) + 1 = ((n.log2 + 1 : Nat) : Int) := by push_cast; rfl
    rw [this, zpow_natCast]
    exact_mod_cast high

theorem div_lt_iff_ratio {n d b : Nat} (hd : 0 < d) : n / d < b ↔ (n : ℚ) / d < b := by
  have hd' : (0 : ℚ) < d := by exact_mod_cast hd
  rw [Nat.div_lt_iff_lt_mul hd, div_lt_iff₀ hd']
  exact_mod_cast Iff.rfl

theorem natCast_pow_pred {p : Nat} (hp : 0 < p) :
    ((Nat.pow 2 (p - 1) : Nat) : ℚ) = 2 ^ ((p : Int) - 1) := by
  rw [Nat.pow_eq, Nat.cast_pow, ← zpow_natCast]
  congr 1
  omega

/-- The last place of a quotient is where it has a full mantissa. -/
theorem BinaryFormat.exponentOf_eq {fmt : BinaryFormat} (hp : 0 < fmt.precision)
    {num den : Nat} (hn : 0 < num) (hd : 0 < den) {e : Int} (least : fmt.minExponent ≤ e)
    (low : (2 : ℚ) ^ (fmt.precision - 1 + e) ≤ num / den)
    (high : (num : ℚ) / den < 2 ^ (fmt.precision + e)) : fmt.exponentOf num den = e := by
  obtain ⟨nlow, nhigh⟩ := log2_bounds hn
  obtain ⟨dlow, dhigh⟩ := log2_bounds hd
  have hd' : (0 : ℚ) < den := by exact_mod_cast hd
  -- the quotient lies between two powers of two that are two places apart
  have above : (num : ℚ) / den < 2 ^ ((num.log2 : Int) + 1 - den.log2) := by
    rw [zpow_sub₀ two_ne_zero]
    exact div_lt_div₀ nhigh dlow (by positivity) (by positivity)
  have under : (2 : ℚ) ^ ((num.log2 : Int) - (den.log2 + 1)) < num / den := by
    rw [zpow_sub₀ two_ne_zero]
    exact div_lt_div₀' nlow dhigh (by positivity) hd'
  have h1 := (zpow_lt_zpow_iff_right₀ (by norm_num : (1 : ℚ) < 2)).mp (low.trans_lt above)
  have h2 := (zpow_lt_zpow_iff_right₀ (by norm_num : (1 : ℚ) < 2)).mp (under.trans high)
  -- so the first guess is right or one too high, and the test tells which
  have guess : ∀ g : Int, fmt.minExponent ≤ g → e ≤ g → g ≤ e + 1 →
      (if (scaleByTwo num den (-g)).1 / (scaleByTwo num den (-g)).2 <
          Nat.pow 2 (fmt.precision - 1) ∧ fmt.minExponent < g then g - 1 else g) = e := by
    intro g hg hle hge
    obtain ⟨dpos, ratio⟩ := scaleByTwo_ratio num hd (-g)
    have test : (scaleByTwo num den (-g)).1 / (scaleByTwo num den (-g)).2 <
        Nat.pow 2 (fmt.precision - 1) ↔ (num : ℚ) / den < 2 ^ (fmt.precision - 1 + g) := by
      rw [div_lt_iff_ratio dpos, ratio, natCast_pow_pred hp, zpow_neg, ← div_eq_mul_inv,
        div_lt_iff₀ (by positivity), ← zpow_add₀ two_ne_zero]
    rcases eq_or_lt_of_le hle with rfl | hlt
    · exact if_neg fun h => absurd (test.mp h.1) (not_lt.mpr low)
    · obtain rfl : g = e + 1 := by omega
      have shift : (fmt.precision : Int) - 1 + (e + 1) = fmt.precision + e := by ring
      exact (if_pos ⟨test.mpr (shift ▸ high), by omega⟩).trans (add_sub_cancel_right e 1)
  exact guess _ (le_max_right _ _) (le_max_of_le_left (by omega)) (max_le (by omega) (by omega))

/-- A mantissa at an exponent as a number of the format, if there is one. A mantissa that was
rounded up to the next power of two is one place too long. -/
def BinaryFormat.settle (fmt : BinaryFormat) (negative : Bool) (m : Nat) (e : Int) :
    Option Binary :=
  if m = Nat.pow 2 fmt.precision then
    if fmt.maxExponent < e + 1 then none
    else some ⟨negative, Nat.pow 2 (fmt.precision - 1), e + 1⟩
  else if fmt.maxExponent < e then none else some ⟨negative, m, e⟩

theorem BinaryFormat.round_eq_settle {fmt : BinaryFormat} {num den : Nat} (hn : 0 < num) {e : Int}
    (exponent : fmt.exponentOf num den = e) (negative : Bool) :
    fmt.round negative num den = fmt.settle negative
      (roundHalfEven (scaleByTwo num den (-e)).1 (scaleByTwo num den (-e)).2) e := by
  subst exponent
  rw [round, if_neg (Nat.pos_iff_ne_zero.mp hn), settle]
  dsimp only
  split_ifs <;> rfl

/-- A quotient with its last place at `e` is rounded to the nearest mantissa. -/
theorem BinaryFormat.round_eq_settle_of_near {fmt : BinaryFormat} (hp : 0 < fmt.precision)
    {num den : Nat} (hn : 0 < num) (hd : 0 < den) {e : Int} (least : fmt.minExponent ≤ e) {s : ℚ}
    (hs : (num : ℚ) / den * 2 ^ (-e) = s) (low : (2 : ℚ) ^ ((fmt.precision : Int) - 1) ≤ s)
    (high : s < 2 ^ (fmt.precision : Int)) {m : Nat} (near : |s - m| ≤ 1 / 2)
    (tie : m % 2 = 1 → |s - m| < 1 / 2) (negative : Bool) :
    fmt.round negative num den = fmt.settle negative m e := by
  have he : (0 : ℚ) < 2 ^ e := by positivity
  have hq : (num : ℚ) / den = s * 2 ^ e := by
    rw [← hs, mul_assoc, ← zpow_add₀ two_ne_zero, neg_add_cancel, zpow_zero, mul_one]
  have exponent : fmt.exponentOf num den = e := by
    refine exponentOf_eq hp hn hd least ?_ ?_
    · rw [hq, zpow_add₀ two_ne_zero]
      exact mul_le_mul_of_nonneg_right low he.le
    · rw [hq, zpow_add₀ two_ne_zero]
      exact mul_lt_mul_of_pos_right high he
  obtain ⟨dpos, ratio⟩ := scaleByTwo_ratio num hd (-e)
  rw [round_eq_settle hn exponent, roundHalfEven_eq dpos (m := m)]
  · rwa [ratio, hs]
  · rwa [ratio, hs]

/-- A number of a format with a full mantissa, and not in its last place of all. -/
structure Binary.IsFull (fmt : BinaryFormat) (x : Binary) : Prop where
  low : 2 ^ (fmt.precision - 1) ≤ x.mantissa
  high : x.mantissa < 2 ^ fmt.precision
  least : fmt.minExponent < x.exponent
  greatest : x.exponent ≤ fmt.maxExponent

/-- How far the numbers that are rounded to a number reach below it, in its last place.
Below a power of two the places are finer. -/
def Binary.reach (fmt : BinaryFormat) (x : Binary) : ℚ :=
  if x.mantissa = Nat.pow 2 (fmt.precision - 1) ∧ fmt.minExponent < x.exponent then 1 / 4
  else 1 / 2

theorem Binary.reach_bounds (fmt : BinaryFormat) (x : Binary) :
    1 / 4 ≤ x.reach fmt ∧ x.reach fmt ≤ 1 / 2 := by
  unfold reach
  split_ifs <;> norm_num

/-- A magnitude is nearer to `x` than to the other numbers of the format, or between two of
them and `x` is the even one. -/
structure Binary.IsNearest (fmt : BinaryFormat) (x : Binary) (q : ℚ) : Prop where
  low : x.mantissa - x.reach fmt ≤ q * 2 ^ (-x.exponent)
  high : q * 2 ^ (-x.exponent) ≤ x.mantissa + 1 / 2
  tie : x.mantissa % 2 = 1 → x.mantissa - x.reach fmt < q * 2 ^ (-x.exponent) ∧
    q * 2 ^ (-x.exponent) < x.mantissa + 1 / 2

theorem Binary.IsNearest.bounds {fmt : BinaryFormat} {x : Binary} {q : ℚ} (hx : x.IsFull fmt)
    (near : x.IsNearest fmt q) : 0 < q ∧ q < 2 ^ (fmt.precision + x.exponent) := by
  have unit : (0 : ℚ) < 2 ^ (-x.exponent) := by positivity
  have one : (1 : ℚ) ≤ x.mantissa := by
    have : 1 ≤ x.mantissa := le_trans (Nat.one_le_pow _ _ (by omega)) hx.low
    exact_mod_cast this
  have mhigh : (x.mantissa : ℚ) + 1 ≤ 2 ^ (fmt.precision : Int) := by
    rw [zpow_natCast]
    exact_mod_cast hx.high
  constructor
  · refine (mul_pos_iff_of_pos_right unit).mp ?_
    linarith [near.low, (x.reach_bounds fmt).2]
  · have : q * 2 ^ (-x.exponent) < 2 ^ (fmt.precision : Int) := by linarith [near.high]
    rw [zpow_neg, ← div_eq_mul_inv, div_lt_iff₀ (by positivity)] at this
    rwa [zpow_add₀ two_ne_zero]

/-- A quotient is rounded to the number that it is nearest to. -/
theorem BinaryFormat.round_eq {fmt : BinaryFormat} (hp : 0 < fmt.precision) {x : Binary}
    (hx : x.IsFull fmt) {num den : Nat} (hn : 0 < num) (hd : 0 < den)
    (near : x.IsNearest fmt (num / den)) : fmt.round x.negative num den = some x := by
  obtain ⟨mlow, mhigh, least, greatest⟩ := hx
  obtain ⟨low, high, tie⟩ := near
  obtain ⟨reachLow, reachHigh⟩ := x.reach_bounds fmt
  generalize hs : (num : ℚ) / den * 2 ^ (-x.exponent) = s at *
  have mhigh' : (x.mantissa : ℚ) + 1 ≤ 2 ^ (fmt.precision : Int) := by
    rw [zpow_natCast]
    exact_mod_cast mhigh
  rcases le_or_gt ((2 : ℚ) ^ ((fmt.precision : Int) - 1)) s with full | short
  · -- the quotient has its last place where the number has it
    have near : |s - x.mantissa| ≤ 1 / 2 := abs_le.mpr ⟨by linarith, by linarith⟩
    have tie' : x.mantissa % 2 = 1 → |s - x.mantissa| < 1 / 2 := fun odd => by
      obtain ⟨low, high⟩ := tie odd
      exact abs_lt.mpr ⟨by linarith, by linarith⟩
    rw [round_eq_settle_of_near hp hn hd least.le hs full (by linarith) near tie', settle,
      if_neg (by rw [Nat.pow_eq]; omega), if_neg (by omega)]
  · -- the quotient is just below a power of two, where places are finer
    have power : x.mantissa = Nat.pow 2 (fmt.precision - 1) := by
      have : (x.mantissa : ℚ) < Nat.pow 2 (fmt.precision - 1) + 1 := by
        rw [natCast_pow_pred hp]
        linarith
      have : x.mantissa < Nat.pow 2 (fmt.precision - 1) + 1 := by exact_mod_cast this
      rw [Nat.pow_eq] at *
      omega
    have quarter : x.reach fmt = 1 / 4 := if_pos ⟨power, least⟩
    have value : (x.mantissa : ℚ) = 2 ^ ((fmt.precision : Int) - 1) := by
      rw [power, natCast_pow_pred hp]
    have twice : (2 : ℚ) ^ (fmt.precision : Int) = 2 * 2 ^ ((fmt.precision : Int) - 1) := by
      rw [← zpow_one_add₀ two_ne_zero, add_sub_cancel]
    have finer : (num : ℚ) / den * 2 ^ (-(x.exponent - 1)) = 2 * s := by
      rw [← hs, neg_sub, sub_eq_add_neg, zpow_one_add₀ two_ne_zero]
      ring
    have one : (1 : ℚ) ≤ 2 ^ ((fmt.precision : Int) - 1) := one_le_zpow₀ (by norm_num) (by omega)
    have near : |2 * s - (Nat.pow 2 fmt.precision : Nat)| ≤ 1 / 2 := by
      rw [Nat.pow_eq, Nat.cast_pow, Nat.cast_ofNat, ← zpow_natCast, twice]
      exact abs_le.mpr ⟨by linarith, by linarith⟩
    have even : Nat.pow 2 fmt.precision % 2 = 0 := by
      rw [Nat.pow_eq, Nat.pow_mod, Nat.mod_self, Nat.zero_pow hp, Nat.zero_mod]
    rw [round_eq_settle_of_near hp hn hd (by omega) finer (by linarith) (by linarith) near
      (fun odd => by omega), settle, if_pos rfl, if_neg (by omega), ← power, sub_add_cancel]

/-! ## Whole numbers -/

/-- The magnitude of a number. -/
def Binary.value (x : Binary) : ℚ := x.mantissa * 2 ^ x.exponent

theorem Binary.magnitude_ratio (x : Binary) : 0 < x.magnitude.2 ∧
    (x.magnitude.1 : ℚ) / x.magnitude.2 = x.value := by
  obtain ⟨hpos, ratio⟩ := scaleByTwo_ratio x.mantissa Nat.one_pos x.exponent
  exact ⟨hpos, by rw [magnitude, ratio, value, Nat.cast_one, div_one]⟩

theorem Binary.value_scaled (x : Binary) : x.value * 2 ^ (-x.exponent) = x.mantissa := by
  rw [value, mul_assoc, ← zpow_add₀ two_ne_zero, add_neg_cancel, zpow_zero, mul_one]

theorem Binary.isNearest_value (fmt : BinaryFormat) (x : Binary) :
    x.IsNearest fmt x.value := by
  have scaled := x.value_scaled
  obtain ⟨reachLow, -⟩ := x.reach_bounds fmt
  exact ⟨by linarith, by linarith, fun _ => ⟨by linarith, by linarith⟩⟩

/-- A whole number whose binary digits fit the mantissa is a number of the format. -/
theorem BinaryFormat.exists_exact {fmt : BinaryFormat} {p : Nat} (hp : fmt.precision = p + 1)
    {n : Nat} (hn : 0 < n) (digits : 2 ^ (n.log2 - p) ∣ n)
    (least : fmt.minExponent < (n.log2 : Int) - p)
    (greatest : (n.log2 : Int) - p ≤ fmt.maxExponent) (negative : Bool) :
    ∃ y : Binary, y.negative = negative ∧ y.exponent = (n.log2 : Int) - p ∧ y.IsFull fmt ∧
      y.value = n := by
  have low := Nat.log2_self_le (Nat.pos_iff_ne_zero.mp hn)
  have high := Nat.lt_log2_self (n := n)
  generalize n.log2 = t at *
  have full : ∀ m : Nat, 2 ^ p ≤ m → m < 2 ^ (p + 1) → (m : ℚ) * 2 ^ ((t : Int) - p) = n →
      ∃ y : Binary, y.negative = negative ∧ y.exponent = (t : Int) - p ∧ y.IsFull fmt ∧
        y.value = n := fun m low high value => by
    refine ⟨⟨negative, m, (t : Int) - p⟩, rfl, rfl, ⟨?_, ?_, least, greatest⟩, value⟩
    · rwa [hp]
    · rwa [hp]
  rcases Nat.le_total t p with ht | ht
  · have unit : 0 < 2 ^ (p - t) := Nat.pow_pos (by omega)
    refine full (n * 2 ^ (p - t)) ?_ ?_ ?_
    · have := Nat.mul_le_mul_right (2 ^ (p - t)) low
      rwa [← Nat.pow_add, show t + (p - t) = p by omega] at this
    · have := Nat.mul_lt_mul_of_pos_right high unit
      rwa [← Nat.pow_add, show t + 1 + (p - t) = p + 1 by omega] at this
    · have : ((p - t : Nat) : Int) + ((t : Int) - p) = 0 := by omega
      rw [Nat.cast_mul, Nat.cast_pow, Nat.cast_ofNat, ← zpow_natCast, mul_assoc,
        ← zpow_add₀ two_ne_zero, this, zpow_zero, mul_one]
  · obtain ⟨m, rfl⟩ := digits
    have unit : 0 < 2 ^ (t - p) := Nat.pow_pos (by omega)
    refine full m ?_ ?_ ?_
    · refine Nat.le_of_mul_le_mul_left ?_ unit
      rwa [← Nat.pow_add, show t - p + p = t by omega]
    · refine Nat.lt_of_mul_lt_mul_left (a := 2 ^ (t - p)) ?_
      rwa [← Nat.pow_add, show t - p + (p + 1) = t + 1 by omega]
    · have : (t : Int) - p = ((t - p : Nat) : Int) := by omega
      rw [this, zpow_natCast, Nat.cast_mul, Nat.cast_pow, Nat.cast_ofNat, mul_comm]

/-- A number of the format that is whole is rounded to itself. -/
theorem BinaryFormat.round_value {fmt : BinaryFormat} (hp : 0 < fmt.precision) {y : Binary}
    (hy : y.IsFull fmt) {n : Nat} (hn : 0 < n) (value : y.value = n) :
    fmt.round y.negative n 1 = some y := by
  refine round_eq hp hy hn Nat.one_pos ?_
  rw [Nat.cast_one, div_one, ← value]
  exact Binary.isNearest_value _ y

/-- A whole number whose binary digits fit 64 bits is first rounded to itself, and then to the
number of 32 bits that is nearest to it. -/
theorem exists_round_double {n : Nat} (hn : 0 < n) (digits : 2 ^ (n.log2 - 52) ∣ n)
    (small : n.log2 < 1000) {x : Binary} (hx : x.IsFull .single) (near : x.IsNearest .single n) :
    ∃ y, BinaryFormat.double.round x.negative n 1 = some y ∧ y.convert .single = some x := by
  obtain ⟨y, sign, -, hy, value⟩ := BinaryFormat.exists_exact (p := 52)
    (show BinaryFormat.double.precision = 53 from rfl) hn digits
    (show (-1074 : Int) < _ by omega) (show _ ≤ (971 : Int) by omega) x.negative
  refine ⟨y, ?_, ?_⟩
  · rw [← sign]
    exact BinaryFormat.round_value (by decide) hy hn value
  · obtain ⟨dpos, ratio⟩ := y.magnitude_ratio
    have npos : 0 < y.magnitude.1 := by
      refine Nat.pos_of_ne_zero fun h => ?_
      rw [h, Nat.cast_zero, zero_div, value] at ratio
      exact hn.ne (by exact_mod_cast ratio)
    rw [Binary.convert, sign]
    exact BinaryFormat.round_eq (by decide) hx npos dpos (by rwa [ratio, value])

/-! ## The shortest decimal -/

/-- A decimal against so many quarters of the last place, without fractions. -/
theorem quarters_le_iff {cn cd pn pd : Nat} (hc : 0 < cd) (hp : 0 < pd) {q u : ℚ}
    (decimal : (cn : ℚ) / cd = q) (unit : (pn : ℚ) / pd = u / 4) (hu : 0 < u) (a : Nat) :
    (a * pn * cd ≤ cn * pd ↔ (a : ℚ) / 4 ≤ q * u⁻¹) ∧
      (cn * pd ≤ a * pn * cd ↔ q * u⁻¹ ≤ (a : ℚ) / 4) := by
  have hc' : (0 : ℚ) < cd := by exact_mod_cast hc
  have hp' : (0 : ℚ) < pd := by exact_mod_cast hp
  have hcn : (cn : ℚ) = q * cd := by rw [← decimal]; field_simp
  have hpn : (pn : ℚ) = u / 4 * pd := by rw [← unit]; field_simp
  have left : ((a * pn * cd : Nat) : ℚ) = a / 4 * (u * pd * cd) := by
    push_cast
    rw [hpn]
    ring
  have right : ((cn * pd : Nat) : ℚ) = q * u⁻¹ * (u * pd * cd) := by
    push_cast
    rw [hcn]
    field_simp
  have scale : 0 < u * pd * cd := by positivity
  constructor
  · rw [← Nat.cast_le (α := ℚ), left, right, mul_le_mul_iff_left₀ scale]
  · rw [← Nat.cast_le (α := ℚ), left, right, mul_le_mul_iff_left₀ scale]

/-- A decimal that is read back is one that the number is nearest to. -/
theorem Binary.readsBack_iff {fmt : BinaryFormat} {x : Binary} (hm : 0 < x.mantissa) (c : Nat)
    (k : Int) : x.readsBack fmt c k = true ↔ x.IsNearest fmt (c * 10 ^ k) := by
  obtain ⟨cpos, cratio⟩ := scaleByTen_ratio c Nat.one_pos k
  obtain ⟨ppos, pratio⟩ := scaleByTwo_ratio 1 Nat.one_pos (x.exponent - 2)
  have low : ((x.quarters fmt).1 : ℚ) / 4 = x.mantissa - x.reach fmt := by
    unfold quarters reach
    dsimp only
    split_ifs <;> rw [Nat.cast_sub (by omega)] <;> push_cast <;> ring
  have high : ((x.quarters fmt).2.2 : ℚ) / 4 = x.mantissa + 1 / 2 := by
    unfold quarters
    push_cast
    ring
  rcases hc : scaleByTen c 1 k with ⟨cn, cd⟩
  rcases hp : scaleByTwo 1 1 (x.exponent - 2) with ⟨pn, pd⟩
  rcases hq : x.quarters fmt with ⟨below, middle, above⟩
  rw [hc, Nat.cast_one, div_one] at cratio
  rw [hc] at cpos
  rw [hp] at ppos pratio
  rw [hq] at low high
  have unit : (pn : ℚ) / pd = 2 ^ x.exponent / 4 := by
    rw [pratio, zpow_sub₀ two_ne_zero]
    norm_num
  have compare := quarters_le_iff cpos ppos cratio unit (by positivity)
  have lowIff := compare below
  have highIff := compare above
  rw [low, ← zpow_neg] at lowIff
  rw [high, ← zpow_neg] at highIff
  simp only [readsBack, hc, hp, hq]
  split_ifs with even
  · rw [Bool.and_eq_true, decide_eq_true_eq, decide_eq_true_eq, lowIff.1, highIff.2]
    exact ⟨fun ⟨l, h⟩ => ⟨l, h, fun odd => by omega⟩, fun h => ⟨h.low, h.high⟩⟩
  · rw [Bool.and_eq_true, decide_eq_true_eq, decide_eq_true_eq, ← not_le, ← not_le, lowIff.2,
      highIff.1, not_le, not_le]
    exact ⟨fun ⟨l, h⟩ => ⟨l.le, h.le, fun _ => ⟨l, h⟩⟩, fun h => h.tie (by omega)⟩

namespace Binary

variable {fmt : BinaryFormat} {x : Binary}

theorem readsBack_of_onGrid {k : Int} {c : Nat} (h : x.onGrid fmt k = some c) :
    x.readsBack fmt c k = true := by
  unfold onGrid at h
  dsimp only at h
  split at h
  · cases h
    assumption
  · cases h
    assumption
  · cases h
  · split_ifs at h <;> cases h <;> assumption

/-- A grid has a point if the neighbour below is read back. -/
theorem exists_onGrid {k : Int}
    (h : x.readsBack fmt ((scaleByTen x.magnitude.1 x.magnitude.2 (-k)).1 /
      (scaleByTen x.magnitude.1 x.magnitude.2 (-k)).2) k = true) :
    ∃ c, x.onGrid fmt k = some c := by
  unfold onGrid
  dsimp only
  rw [h]
  split
  · exact ⟨_, rfl⟩
  · rename_i wrong _
    cases wrong
  · rename_i wrong _
    cases wrong
  · split_ifs <;> exact ⟨_, rfl⟩

/-- The search ends on the grid where there is a point, or before. -/
theorem exists_searchGrids {k' : Int} {c : Nat} (found : x.onGrid fmt k' = some c) {steps : Nat}
    {k : Int} (below : k' ≤ k) (near : k < k' + steps) : ∃ d, x.searchGrids fmt steps k = some d ∧
      k' ≤ d.exponent ∧ x.onGrid fmt d.exponent = some d.digits := by
  induction steps generalizing k with
  | zero => omega
  | succ steps ih =>
    rw [searchGrids]
    cases h : x.onGrid fmt k with
    | some c => exact ⟨⟨c, k⟩, rfl, below, h⟩
    | none =>
      have apart : k ≠ k' := fun e => by
        rw [e, found] at h
        cases h
      exact ih (by omega) (by push_cast at near; omega)

/-- The neighbour of a number below it on a grid. -/
theorem neighbour_bounds (x : Binary) (k : Int) {c : Nat}
    (hc : (scaleByTen x.magnitude.1 x.magnitude.2 (-k)).1 /
      (scaleByTen x.magnitude.1 x.magnitude.2 (-k)).2 = c) :
    (c : ℚ) * 10 ^ k ≤ x.value ∧ x.value < (c + 1) * 10 ^ k := by
  obtain ⟨mpos, mratio⟩ := x.magnitude_ratio
  obtain ⟨dpos, ratio⟩ := scaleByTen_ratio x.magnitude.1 mpos (-k)
  rw [mratio] at ratio
  have hk : (0 : ℚ) < 10 ^ k := by positivity
  have hv : x.value = x.value * 10 ^ (-k) * 10 ^ k := by
    rw [mul_assoc, ← zpow_add₀ (by norm_num), neg_add_cancel, zpow_zero, mul_one]
  subst hc
  constructor
  · rw [hv]
    refine mul_le_mul_of_nonneg_right ?_ hk.le
    rw [← ratio]
    exact Nat.cast_div_le
  · rw [hv]
    refine mul_lt_mul_of_pos_right ?_ hk
    rw [← ratio]
    have := (div_lt_iff_ratio dpos).mp (Nat.lt_succ_self ((scaleByTen x.magnitude.1 x.magnitude.2
      (-k)).1 / (scaleByTen x.magnitude.1 x.magnitude.2 (-k)).2))
    push_cast at this
    exact this

/-- A grid that is fine enough has a point, and so has the grid of the whole numbers for one
of them. -/
theorem exists_onGrid_of_fine (hm : 0 < x.mantissa) {k : Int}
    (fine : (10 : ℚ) ^ k ≤ 2 ^ (x.exponent - 2) ∨ k = 0 ∧ ∃ n : Nat, x.value = n) :
    ∃ c, x.onGrid fmt k = some c := by
  refine exists_onGrid ((readsBack_iff hm _ _).mpr ?_)
  obtain ⟨low, high⟩ := neighbour_bounds x k rfl
  generalize (scaleByTen x.magnitude.1 x.magnitude.2 (-k)).1 /
      (scaleByTen x.magnitude.1 x.magnitude.2 (-k)).2 = c at *
  rcases fine with fine | ⟨rfl, n, hn⟩
  · have scaled := x.value_scaled
    obtain ⟨reachLow, -⟩ := x.reach_bounds fmt
    have unit : (0 : ℚ) < 2 ^ (-x.exponent) := by positivity
    have quarter : (2 : ℚ) ^ (x.exponent - 2) * 2 ^ (-x.exponent) = 1 / 4 := by
      rw [← zpow_add₀ two_ne_zero, show x.exponent - 2 + -x.exponent = -2 by ring]
      norm_num
    have upper := mul_le_mul_of_nonneg_right low unit.le
    have lower : x.value * 2 ^ (-x.exponent) <
        (c * 10 ^ k + 2 ^ (x.exponent - 2)) * 2 ^ (-x.exponent) :=
      mul_lt_mul_of_pos_right (by linarith) unit
    rw [scaled, add_mul, quarter] at lower
    rw [scaled] at upper
    exact ⟨by linarith, by linarith, fun _ => ⟨by linarith, by linarith⟩⟩
  · have : c = n := by
      rw [hn, zpow_zero, mul_one] at low high
      have low : c ≤ n := by exact_mod_cast low
      have high : n < c + 1 := by exact_mod_cast high
      omega
    rw [this, zpow_zero, mul_one, ← hn]
    exact isNearest_value fmt x

/-- The grid on which the search for a whole number ends at the latest : that of the whole
numbers, or the first one that is fine enough. -/
theorem exists_onGrid_of_whole (hm : 0 < x.mantissa) {n : Nat} (hn : x.value = n)
    (small : x.exponent ≤ 40) : ∃ c, x.onGrid fmt (max (x.exponent - 29) 0) = some c := by
  refine exists_onGrid_of_fine hm ?_
  rcases le_or_gt x.exponent 29 with h | h
  · exact Or.inr ⟨by omega, n, hn⟩
  · left
    have table : ∀ j < 12, 10 ^ j ≤ 2 ^ (j + 27) := by decide
    obtain ⟨j, hj⟩ := Int.eq_ofNat_of_zero_le (show 0 ≤ x.exponent - 29 by omega)
    have hj' : x.exponent - 2 = ((j + 27 : Nat) : Int) := by push_cast; omega
    rw [max_eq_left (by omega), hj, hj', zpow_natCast, zpow_natCast]
    exact_mod_cast table j (by omega)

/-- The search for a whole number begins above the grid on which it ends. -/
theorem decimalExponent_bounds (hx : x.IsFull .single) {n : Nat} (hn : x.value = n)
    (pos : 0 < n) (small : x.exponent ≤ 40) : max (x.exponent - 29) 0 ≤ x.decimalExponent ∧
      x.decimalExponent < max (x.exponent - 29) 0 + 20 := by
  have hm : 0 < x.mantissa := lt_of_lt_of_le (by decide) hx.low
  have digits : x.mantissa.log2 = 23 :=
    (Nat.log2_eq_iff (Nat.pos_iff_ne_zero.mp hm)).mpr ⟨hx.low, hx.high⟩
  have start : x.decimalExponent = (24 + x.exponent) * 30103 / 100000 + 1 := by
    rw [decimalExponent, digits]
    norm_num
  have least : -24 < x.exponent := by
    have below := ((isNearest_value .single x).bounds hx).2
    rw [hn] at below
    have one : (1 : ℚ) ≤ n := by exact_mod_cast pos
    have := (one_lt_zpow_iff_right₀ (by norm_num : (1 : ℚ) < 2)).mp (one.trans_lt below)
    change 0 < (24 : Int) + x.exponent at this
    omega
  omega

/-- The shortest decimal of a whole number is a whole number that is read back, and has no
more binary digits than a number of 64 bits. -/
theorem shortest_whole (hx : x.IsFull .single) {n : Nat} (hn : x.value = n) (pos : 0 < n)
    (small : x.exponent ≤ 40) : ∃ k c : Nat, x.shortest .single = ⟨c, k⟩ ∧
      x.IsNearest .single ((c * 10 ^ k : Nat) : ℚ) ∧ 0 < c ∧
      2 ^ ((c * 10 ^ k).log2 - 52) ∣ c * 10 ^ k ∧ (c * 10 ^ k).log2 < 1000 := by
  have hm : 0 < x.mantissa := lt_of_lt_of_le (by decide) hx.low
  obtain ⟨c, found⟩ : ∃ c, x.onGrid .single _ = some c := exists_onGrid_of_whole hm hn small
  obtain ⟨below, near⟩ := decimalExponent_bounds hx hn pos small
  obtain ⟨⟨c, k⟩, hd, floor, point⟩ :=
    exists_searchGrids found below (show _ < _ + ((20 : Nat) : Int) from near)
  dsimp only at floor point
  obtain ⟨k, rfl⟩ := Int.eq_ofNat_of_zero_le (show 0 ≤ k by omega)
  have near := (readsBack_iff hm _ _).mp (readsBack_of_onGrid point)
  have whole : (c : ℚ) * 10 ^ (k : Int) = ((c * 10 ^ k : Nat) : ℚ) := by
    rw [zpow_natCast]
    push_cast
    rfl
  rw [whole] at near
  obtain ⟨npos, below⟩ := near.bounds hx
  have npos : 0 < c * 10 ^ k := by exact_mod_cast npos
  have cpos : 0 < c := Nat.pos_of_mul_pos_right npos
  have short : (c * 10 ^ k).log2 < 24 + x.exponent :=
    (zpow_lt_zpow_iff_right₀ (by norm_num : (1 : ℚ) < 2)).mp
      ((log2_bounds npos).1.trans_lt below)
  refine ⟨k, c, by rw [shortest, hd]; rfl, near, cpos, ?_, ?_⟩
  · have : (c * 10 ^ k).log2 - 52 ≤ k := by omega
    refine (pow_dvd_pow 2 this).trans (Dvd.dvd.mul_left ?_ c)
    exact pow_dvd_pow_of_dvd (by decide) k
  · omega

end Binary

/-! ## Numbers of 32 bits -/

theorem roundHalfEven_bounds (num den : Nat) :
    num / den ≤ roundHalfEven num den ∧ roundHalfEven num den ≤ num / den + 1 := by
  unfold roundHalfEven
  dsimp only
  split_ifs <;> omega

/-- What rounding a whole number below `2 ^ 64` to 32 bits comes to : a whole number, below
`2 ^ 64` too or equal to it. -/
structure Binary.IsWholeSingle (x : Binary) : Prop where
  full : x.IsFull .single
  whole : ∃ n : Nat, 0 < n ∧ x.value = n
  small : x.exponent ≤ 40 ∨ x.mantissa = 2 ^ 23 ∧ x.exponent = 41

/-- A mantissa of 24 digits, or the first one that is longer, in a whole last place. -/
theorem exists_settle_single {m i : Nat} (low : 2 ^ 23 ≤ m) (high : m ≤ 2 ^ 24) (hi : i ≤ 40)
    (negative : Bool) : ∃ x : Binary, BinaryFormat.single.settle negative m i = some x ∧
      x.negative = negative ∧ x.IsWholeSingle := by
  have whole : ∀ (m i : Nat) (e : Int), e = i → 2 ^ 23 ≤ m → ∃ n : Nat, 0 < n ∧
      Binary.value ⟨negative, m, e⟩ = n := by
    rintro m i e rfl hm
    refine ⟨m * 2 ^ i, Nat.mul_pos (by omega) (Nat.pow_pos (by omega)), ?_⟩
    rw [Binary.value, zpow_natCast]
    push_cast
    rfl
  have full : ∀ (m : Nat) (e : Int), 2 ^ 23 ≤ m → m < 2 ^ 24 → 0 ≤ e → e ≤ 41 →
      Binary.IsFull .single ⟨negative, m, e⟩ := fun m e low high least greatest =>
    ⟨low, high, show (-149 : Int) < e by omega, show e ≤ (104 : Int) by omega⟩
  unfold BinaryFormat.settle
  split_ifs with up long long
  · exact absurd long (not_lt.mpr (show (i : Int) + 1 ≤ 104 by omega))
  · refine ⟨_, rfl, rfl, full _ _ (by decide) (by decide) (by omega) (by omega),
      whole _ (i + 1) _ (by push_cast; rfl) (by decide), ?_⟩
    rcases Nat.lt_or_ge i 40 with h | h
    · exact Or.inl (show (i : Int) + 1 ≤ 40 by omega)
    · exact Or.inr ⟨rfl, show (i : Int) + 1 = 41 by omega⟩
  · exact absurd long (not_lt.mpr (show (i : Int) ≤ 104 by omega))
  · have short : m ≠ 2 ^ 24 := up
    exact ⟨_, rfl, rfl, full m i low (by omega) (by omega) (by omega), whole m i _ rfl low,
      Or.inl (show (i : Int) ≤ 40 by omega)⟩

/-- A whole number below `2 ^ 64` is rounded to a whole number. -/
theorem exists_round_single {n : Nat} (pos : 0 < n) (small : n < 2 ^ 64) (negative : Bool) :
    ∃ x : Binary, BinaryFormat.single.round negative n 1 = some x ∧ x.negative = negative ∧
      x.IsWholeSingle := by
  have ht : n.log2 < 64 := (Nat.log2_lt (Nat.pos_iff_ne_zero.mp pos)).mpr small
  rcases Nat.lt_or_ge 23 n.log2 with long | short
  · -- what is rounded to is a multiple of the last place, which is whole
    obtain ⟨j, hj⟩ := Nat.exists_eq_add_of_le long.le
    obtain ⟨low, high⟩ := log2_bounds pos
    have digits : (BinaryFormat.single.precision : Int) = 24 := rfl
    have exponent : BinaryFormat.single.exponentOf n 1 = j := by
      refine BinaryFormat.exponentOf_eq (by decide) pos Nat.one_pos (show (-149 : Int) ≤ j by omega)
        ?_ ?_
      · rwa [Nat.cast_one, div_one, digits, show (24 : Int) - 1 + j = n.log2 by omega]
      · rwa [Nat.cast_one, div_one, digits, show (24 : Int) + j = n.log2 + 1 by omega]
    have scaled : scaleByTwo n 1 (-(j : Int)) = (n, 2 ^ j) := by
      simp [scaleByTwo]
    rw [BinaryFormat.round_eq_settle pos exponent, scaled]
    have mlow : 2 ^ 23 ≤ n / 2 ^ j := by
      rw [Nat.le_div_iff_mul_le (Nat.pow_pos (by omega)), ← Nat.pow_add, ← hj]
      exact Nat.log2_self_le (Nat.pos_iff_ne_zero.mp pos)
    have mhigh : n / 2 ^ j < 2 ^ 24 := by
      rw [Nat.div_lt_iff_lt_mul (Nat.pow_pos (by omega)), ← Nat.pow_add,
        show 24 + j = n.log2 + 1 by omega]
      exact Nat.lt_log2_self
    obtain ⟨rlow, rhigh⟩ := roundHalfEven_bounds n (2 ^ j)
    exact exists_settle_single (mlow.trans rlow) (rhigh.trans mhigh) (by omega) negative
  · -- all the digits fit
    have digits : 2 ^ (n.log2 - 23) ∣ n := by
      rw [Nat.sub_eq_zero_of_le short]
      exact one_dvd n
    obtain ⟨x, sign, exponent, hx, value⟩ := BinaryFormat.exists_exact (p := 23)
      (show BinaryFormat.single.precision = 24 from rfl) pos digits
      (show (-149 : Int) < _ by omega) (show _ ≤ (104 : Int) by omega) negative
    refine ⟨x, ?_, sign, hx, ⟨n, pos, value⟩, Or.inl (by omega)⟩
    rw [← sign]
    exact BinaryFormat.round_value (by decide) hx pos value

/-! ## Numbers of 32 bits in JSON -/

namespace Json

/-- A whole number of 32 bits is written with its shortest digits, and read back from them. -/
theorem real32?_ofReal32 {x : Binary} (hx : x.IsWholeSingle) :
    (∃ y, ofReal32 (some x) = .number (.binary y)) ∧
      real32? (ofReal32 (some x)) = some (some x) := by
  obtain ⟨full, ⟨n, pos, value⟩, small⟩ := hx
  have hm : x.mantissa ≠ 0 := fun h => absurd full.low (by rw [h]; decide)
  rcases small with small | ⟨mantissa, exponent⟩
  · obtain ⟨k, c, shortest, near, cpos, digits, bound⟩ :=
      Binary.shortest_whole full value pos small
    have npos : 0 < c * 10 ^ k := Nat.mul_pos cpos (Nat.pow_pos (by omega))
    obtain ⟨y, rounded, back⟩ := exists_round_double npos digits bound full near
    have scaled : scaleByTen c 1 k = (c * 10 ^ k, 1) := by
      simp [scaleByTen]
    have written : ofReal32 (some x) = .number (.binary y) := by
      unfold ofReal32
      simp only [hm, if_false, shortest, scaled, rounded]
    exact ⟨⟨y, written⟩, by rw [written, real32?, back]⟩
  · -- the first number with 65 digits
    obtain ⟨negative, _, _⟩ := x
    dsimp only at mantissa exponent
    subst mantissa exponent
    cases negative <;> exact ⟨⟨_, rfl⟩, rfl⟩

/-- A whole number below `2 ^ 64` that is read as a number of 32 bits is written so that the
same number is read again. -/
theorem real32?_again {i : Int} (small : i.natAbs < 2 ^ 64) {r : Real32}
    (h : real32? (.int i) = some r) :
    real32? (ofReal32 r) = some r ∧ ∃ y, ofReal32 r = .number (.binary y) := by
  cases h
  rcases Nat.eq_zero_or_pos i.natAbs with zero | pos
  · have hi : (decide (i < 0)) = false := by simp [Int.natAbs_eq_zero.mp zero]
    rw [hi, zero]
    refine ⟨?_, _, rfl⟩
    simp [real32?, ofReal32, BinaryFormat.round, Binary.convert, Binary.magnitude, scaleByTwo]
  · obtain ⟨x, rounded, -, hx⟩ := exists_round_single pos small (i < 0)
    rw [rounded]
    exact (real32?_ofReal32 hx).symm

end Json

end Switchboard
