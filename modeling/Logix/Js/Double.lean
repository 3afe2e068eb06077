import Mathlib.Data.Int.Log
import Logix.Js.Number

/-!
# Doubles

The finite numbers of JavaScript: the rationals that rounding to 53 binary digits leaves alone, with
the exact results of the operations rounded to the nearest of them, the even one on a tie.

* `roundEven`, `toDouble`: the rounding, to the multiples of `ulp x`;
* `toDouble_mono`, `toDouble_neg`, `toDouble_toDouble`, `toDouble_intCast`: its laws;
* `Double`: the numbers, ordered as rationals, with `+`, `-`, `*`, `/`, `toFixed` and `Math.round`;
* **`Double.sub_eq_zero_iff`**: a difference is zero only for equal numbers;
* `Double.total`: sums in the order of a list, which depend on it;
* `Double.IsWhole`: the whole numbers up to `2 ^ 53`, whose differences are exact;
* **`Double.IsCents.toFixed_two`**: whole cents stay.

There is no largest double here: where the exponent of JavaScript ends, the numbers go on.
-/

namespace Logix

/-! ## The nearest integer -/

/-- The nearest integer, the even one on a tie. -/
def roundEven (x : ℚ) : ℤ :=
  if Int.fract x < 1 / 2 then ⌊x⌋
  else if 1 / 2 < Int.fract x then ⌊x⌋ + 1
  else ⌊x⌋ + ⌊x⌋ % 2

/-- `n` is nearest to `x`, and even if another integer is as near. -/
structure IsRoundEven (x : ℚ) (n : ℤ) : Prop where
  near : |x - n| ≤ 1 / 2
  even : |x - n| = 1 / 2 → n % 2 = 0

theorem isRoundEven_roundEven (x : ℚ) : IsRoundEven x (roundEven x) := by
  have hfract : x = ⌊x⌋ + Int.fract x := (Int.floor_add_fract x).symm
  have hnonneg := Int.fract_nonneg x
  have hlt := Int.fract_lt_one x
  rw [roundEven]
  split_ifs with hlow hhigh
  · have habs : |x - ⌊x⌋| = Int.fract x := abs_of_nonneg hnonneg
    exact ⟨habs.trans_le hlow.le, fun h => absurd (habs.symm.trans h) hlow.ne⟩
  · have habs : |x - (⌊x⌋ + 1 : ℤ)| = 1 - Int.fract x := by
      rw [abs_sub_comm]
      push_cast
      exact (abs_of_nonneg (by linarith)).trans (by linarith)
    exact ⟨habs.trans_le (by linarith), fun h => by linarith⟩
  · have htie : Int.fract x = 1 / 2 := le_antisymm (not_lt.mp hhigh) (not_lt.mp hlow)
    rcases Int.emod_two_eq_zero_or_one ⌊x⌋ with hmod | hmod
    · rw [hmod, add_zero]
      exact ⟨(abs_of_nonneg hnonneg).trans_le htie.le, fun _ => hmod⟩
    · rw [hmod]
      have habs : |x - (⌊x⌋ + 1 : ℤ)| = 1 / 2 := by
        rw [abs_sub_comm]
        push_cast
        exact (abs_of_nonneg (by linarith)).trans (by linarith)
      exact ⟨habs.le, fun _ => by omega⟩

theorem IsRoundEven.mono {x y : ℚ} {n m : ℤ} (hx : IsRoundEven x n) (hy : IsRoundEven y m)
    (hxy : x ≤ y) : n ≤ m := by
  by_contra hlt
  obtain ⟨hx₁, hx₂⟩ := abs_le.mp hx.near
  obtain ⟨hy₁, hy₂⟩ := abs_le.mp hy.near
  have hcast : (m : ℚ) + 1 ≤ n := by exact_mod_cast Int.add_one_le_of_lt (not_le.mp hlt)
  -- both numbers lie in the middle between `m` and the next integer `n`
  have hn : n = m + 1 := by
    have hle : (n : ℚ) ≤ m + 1 := by linarith
    exact le_antisymm (by exact_mod_cast hle) (by exact_mod_cast hcast)
  have hn' : (n : ℚ) = m + 1 := by exact_mod_cast hn
  have hxn : |x - n| = 1 / 2 := by rw [abs_sub_comm, abs_of_nonneg] <;> linarith
  have hym : |y - m| = 1 / 2 := by rw [abs_of_nonneg] <;> linarith
  have heven := hx.even hxn
  have heven' := hy.even hym
  omega

theorem IsRoundEven.eq {x : ℚ} {n : ℤ} (h : IsRoundEven x n) : roundEven x = n :=
  le_antisymm ((isRoundEven_roundEven x).mono h le_rfl) (h.mono (isRoundEven_roundEven x) le_rfl)

theorem roundEven_mono {x y : ℚ} (h : x ≤ y) : roundEven x ≤ roundEven y :=
  (isRoundEven_roundEven x).mono (isRoundEven_roundEven y) h

theorem roundEven_intCast (n : ℤ) : roundEven n = n :=
  IsRoundEven.eq ⟨by rw [sub_self, abs_zero]; positivity,
    fun h => by rw [sub_self, abs_zero] at h; norm_num at h⟩

theorem roundEven_neg (x : ℚ) : roundEven (-x) = -roundEven x := by
  have h := isRoundEven_roundEven x
  have habs : |-x - (-roundEven x : ℤ)| = |x - roundEven x| := by
    rw [Int.cast_neg, ← neg_sub', abs_neg]
  refine IsRoundEven.eq ⟨habs.trans_le h.near, fun heq => ?_⟩
  have heven := h.even (habs.symm.trans heq)
  omega

/-! ## The nearest double -/

theorem two_zpow_pos (e : ℤ) : (0 : ℚ) < 2 ^ e := zpow_pos rfl e

/-- The nearest multiple of `2 ^ e`. -/
def roundTo (e : ℤ) (x : ℚ) : ℚ := roundEven (x / 2 ^ e) * 2 ^ e

theorem roundTo_mono {e : ℤ} {x y : ℚ} (h : x ≤ y) : roundTo e x ≤ roundTo e y := by
  have hround := roundEven_mono (div_le_div_of_nonneg_right h (two_zpow_pos e).le)
  exact mul_le_mul_of_nonneg_right (Int.cast_le.mpr hround) (two_zpow_pos e).le

theorem roundTo_neg (e : ℤ) (x : ℚ) : roundTo e (-x) = -roundTo e x := by
  rw [roundTo, neg_div, roundEven_neg, Int.cast_neg, neg_mul]
  rfl

theorem roundTo_intCast_mul {e f : ℤ} (h : e ≤ f) (k : ℤ) : roundTo e (k * 2 ^ f) = k * 2 ^ f := by
  obtain ⟨d, rfl⟩ := Int.le.dest h
  have hdiv : (k * 2 ^ (e + d) : ℚ) / 2 ^ e = (k * 2 ^ d : ℤ) := by
    rw [zpow_add₀ two_ne_zero, mul_comm ((2 : ℚ) ^ e), ← mul_assoc,
      mul_div_cancel_right₀ _ (two_zpow_pos e).ne']
    push_cast
    rfl
  rw [roundTo, hdiv, roundEven_intCast, ← hdiv, div_mul_cancel₀ _ (two_zpow_pos e).ne']

/-- The exponent of the last of the 53 digits of `x`, or that of the least positive double. -/
def ulpExponent (x : ℚ) : ℤ := max (Int.log 2 |x| - 52) (-1074)

/-- **The nearest double**. -/
def toDouble (x : ℚ) : ℚ := roundTo (ulpExponent x) x

theorem toDouble_neg (x : ℚ) : toDouble (-x) = -toDouble x := by
  rw [toDouble, ulpExponent, abs_neg, roundTo_neg]
  rfl

@[simp] theorem toDouble_zero : toDouble 0 = 0 := by
  have h := roundTo_intCast_mul (le_refl (ulpExponent 0)) 0
  rwa [Int.cast_zero, zero_mul] at h

theorem toDouble_of_lt {k e : ℤ} (hk : |k| < 2 ^ 53) (he : -1074 ≤ e) :
    toDouble (k * 2 ^ e) = k * 2 ^ e := by
  rcases eq_or_ne k 0 with rfl | hzero
  · rw [Int.cast_zero, zero_mul, toDouble_zero]
  have hpos : (0 : ℚ) < |(k : ℚ)| := abs_pos.mpr (Int.cast_ne_zero.mpr hzero)
  have habs : |(k * 2 ^ e : ℚ)| = |(k : ℚ)| * 2 ^ e := by
    rw [abs_mul, abs_of_pos (two_zpow_pos e)]
  have hlt : |(k * 2 ^ e : ℚ)| < (2 : ℕ) ^ (53 + e) := by
    rw [habs, Nat.cast_ofNat, zpow_add₀ two_ne_zero]
    exact mul_lt_mul_of_pos_right (by exact_mod_cast hk) (two_zpow_pos e)
  -- the last of the 53 digits is not to the left of the `e`-th
  have hlog := (Int.lt_zpow_iff_log_lt (b := 2) Nat.one_lt_two
    (habs ▸ mul_pos hpos (two_zpow_pos e))).mp hlt
  exact roundTo_intCast_mul (max_le (by omega) he) k

theorem toDouble_intCast_mul {k e : ℤ} (hk : |k| ≤ 2 ^ 53) (he : -1074 ≤ e) :
    toDouble (k * 2 ^ e) = k * 2 ^ e := by
  rcases hk.lt_or_eq with hlt | heq
  · exact toDouble_of_lt hlt he
  · -- the next digit is zero
    obtain ⟨j, rfl, hj⟩ : ∃ j : ℤ, k = j * 2 ∧ |j| < 2 ^ 53 := by
      rcases (abs_eq (by positivity)).mp heq with rfl | rfl
      · exact ⟨2 ^ 52, by norm_num, by norm_num⟩
      · exact ⟨-2 ^ 52, by norm_num, by norm_num⟩
    have hshift : ((j * 2 : ℤ) * 2 ^ e : ℚ) = j * 2 ^ (e + 1) := by
      rw [zpow_add_one₀ two_ne_zero]
      push_cast
      ring
    rw [hshift, toDouble_of_lt hj (by omega)]

/-- Integers up to `2 ^ 53` are doubles. -/
theorem toDouble_intCast {k : ℤ} (hk : |k| ≤ 2 ^ 53) : toDouble k = k := by
  have h := toDouble_intCast_mul (e := 0) hk (by decide)
  rwa [zpow_zero, mul_one] at h

theorem exists_toDouble_eq (x : ℚ) :
    ∃ k e : ℤ, |k| ≤ 2 ^ 53 ∧ -1074 ≤ e ∧ toDouble x = k * 2 ^ e := by
  refine ⟨_, _, ?_, le_max_right _ _, rfl⟩
  have hlog : |x| < 2 ^ (53 + ulpExponent x) := by
    refine (Int.lt_zpow_succ_log_self (b := 2) Nat.one_lt_two |x|).trans_le ?_
    have hexp : Int.log 2 |x| + 1 ≤ 53 + ulpExponent x := by
      have := le_max_left (Int.log 2 |x| - 52) (-1074)
      rw [ulpExponent]
      omega
    exact zpow_le_zpow_right₀ one_le_two hexp
  have hdigits : |x / 2 ^ ulpExponent x| ≤ (2 ^ 53 : ℤ) := by
    rw [abs_div, abs_of_pos (two_zpow_pos _), div_le_iff₀ (two_zpow_pos _)]
    refine hlog.le.trans_eq ?_
    rw [zpow_add₀ two_ne_zero]
    norm_num
  obtain ⟨hlo, hhi⟩ := abs_le.mp hdigits
  refine abs_le.mpr ⟨?_, (roundEven_mono hhi).trans_eq (roundEven_intCast _)⟩
  have h := roundEven_mono hlo
  rwa [← Int.cast_neg, roundEven_intCast] at h

/-- **The nearest double is a double.** -/
@[simp] theorem toDouble_toDouble (x : ℚ) : toDouble (toDouble x) = toDouble x := by
  obtain ⟨k, e, hk, he, h⟩ := exists_toDouble_eq x
  rw [h, toDouble_intCast_mul hk he]

theorem abs_toDouble_sub_le {x : ℚ} {m : ℤ} (hm : -1021 ≤ m) (hx : |x| < 2 ^ m) :
    |toDouble x - x| ≤ 2 ^ (m - 54) := by
  rcases eq_or_ne x 0 with rfl | hne
  · rw [toDouble_zero, sub_self, abs_zero]
    exact (two_zpow_pos _).le
  have hexp : ulpExponent x ≤ m - 53 := by
    have hlog := (Int.lt_zpow_iff_log_lt (b := 2) Nat.one_lt_two (abs_pos.mpr hne)).mp
      (by exact_mod_cast hx)
    exact max_le (by omega) (by omega)
  have hpos := two_zpow_pos (ulpExponent x)
  have hsplit : toDouble x - x =
      (roundEven (x / 2 ^ ulpExponent x) - x / 2 ^ ulpExponent x) * 2 ^ ulpExponent x := by
    rw [sub_mul, div_mul_cancel₀ _ hpos.ne']
    rfl
  calc |toDouble x - x|
      = |x / 2 ^ ulpExponent x - roundEven (x / 2 ^ ulpExponent x)| * 2 ^ ulpExponent x := by
        rw [hsplit, abs_mul, abs_of_pos hpos, abs_sub_comm]
    _ ≤ 1 / 2 * 2 ^ ulpExponent x :=
        mul_le_mul_of_nonneg_right (isRoundEven_roundEven _).near hpos.le
    _ ≤ 1 / 2 * 2 ^ (m - 53) :=
        mul_le_mul_of_nonneg_left (zpow_le_zpow_right₀ one_le_two hexp) (by norm_num)
    _ = 2 ^ (m - 54) := by
        rw [show m - 53 = m - 54 + 1 by ring, zpow_add_one₀ two_ne_zero]
        ring

theorem toDouble_mono_of_pos {x y : ℚ} (hx : 0 < x) (hxy : x ≤ y) : toDouble x ≤ toDouble y := by
  have hy : 0 < y := hx.trans_le hxy
  have hlog : Int.log 2 x ≤ Int.log 2 y := Int.log_mono_right hx hxy
  have hxabs := abs_of_pos hx
  have hyabs := abs_of_pos hy
  rcases eq_or_ne (ulpExponent x) (ulpExponent y) with heq | hne
  · rw [toDouble, toDouble, heq]
    exact roundTo_mono hxy
  · -- a power of two lies between the two, and is left alone by both roundings
    have hne' := hne
    rw [ulpExponent, ulpExponent, hxabs, hyabs] at hne'
    have hstep : Int.log 2 x < Int.log 2 y := by omega
    have hexp : ulpExponent y = Int.log 2 y - 52 := by
      rw [ulpExponent, hyabs]
      omega
    have hexp' : ulpExponent x ≤ Int.log 2 y := by
      rw [ulpExponent, hxabs]
      omega
    have hbelow : x ≤ 2 ^ Int.log 2 y :=
      ((Int.lt_zpow_iff_log_lt (b := 2) Nat.one_lt_two hx).mpr hstep).le
    have habove : (2 : ℚ) ^ Int.log 2 y ≤ y := Int.zpow_log_le_self Nat.one_lt_two hy
    have hfix : ∀ e ≤ Int.log 2 y, roundTo e (2 ^ Int.log 2 y) = 2 ^ Int.log 2 y := fun e he => by
      have h := roundTo_intCast_mul he 1
      rwa [Int.cast_one, one_mul] at h
    calc toDouble x ≤ roundTo (ulpExponent x) (2 ^ Int.log 2 y) := roundTo_mono hbelow
      _ = roundTo (ulpExponent y) (2 ^ Int.log 2 y) := by
        rw [hfix _ hexp', hfix _ (by omega)]
      _ ≤ toDouble y := roundTo_mono habove

theorem toDouble_nonneg {x : ℚ} (hx : 0 ≤ x) : 0 ≤ toDouble x := by
  have h := roundTo_mono (e := ulpExponent x) hx
  have hzero := roundTo_intCast_mul (le_refl (ulpExponent x)) 0
  rw [Int.cast_zero, zero_mul] at hzero
  exact hzero ▸ h

/-- **Rounding keeps the order.** -/
theorem toDouble_mono {x y : ℚ} (h : x ≤ y) : toDouble x ≤ toDouble y := by
  rcases lt_trichotomy 0 x with hx | rfl | hx
  · exact toDouble_mono_of_pos hx h
  · rw [toDouble_zero]
    exact toDouble_nonneg h
  · rcases lt_or_ge y 0 with hy | hy
    · have hneg := toDouble_mono_of_pos (neg_pos.mpr hy) (neg_le_neg h)
      rwa [toDouble_neg, toDouble_neg, neg_le_neg_iff] at hneg
    · have hneg := toDouble_nonneg (neg_pos.mpr hx).le
      rw [toDouble_neg] at hneg
      exact (neg_nonneg.mp hneg).trans (toDouble_nonneg hy)

theorem exists_toDouble_eq_mul (x : ℚ) : ∃ n : ℤ, toDouble x = n * 2 ^ (-1074 : ℤ) := by
  obtain ⟨k, e, -, he, h⟩ := exists_toDouble_eq x
  obtain ⟨d, rfl⟩ := Int.le.dest he
  refine ⟨k * 2 ^ d, h.trans ?_⟩
  rw [zpow_add₀ two_ne_zero, zpow_natCast, Int.cast_mul, Int.cast_pow, Int.cast_ofNat, mul_assoc,
    mul_comm (2 ^ d : ℚ)]

theorem eq_zero_of_toDouble_eq_zero {n : ℤ} (h : toDouble (n * 2 ^ (-1074 : ℤ)) = 0) : n = 0 := by
  have hpos : ∀ {m : ℤ}, toDouble (m * 2 ^ (-1074 : ℤ)) = 0 → m ≤ 0 := fun {m} hm => by
    by_contra hlt
    have hone : (1 : ℚ) ≤ m := by exact_mod_cast Int.add_one_le_of_lt (not_le.mp hlt)
    have hleast := toDouble_intCast_mul (k := 1) (e := -1074) (by decide) le_rfl
    rw [Int.cast_one, one_mul] at hleast
    have hle := toDouble_mono (le_mul_of_one_le_left (two_zpow_pos (-1074)).le hone)
    rw [hm, hleast] at hle
    exact absurd hle (not_le.mpr (two_zpow_pos _))
  have hneg : toDouble ((-n : ℤ) * 2 ^ (-1074 : ℤ)) = 0 := by
    rw [Int.cast_neg, neg_mul, toDouble_neg, h, neg_zero]
  exact le_antisymm (hpos h) (neg_nonpos.mp (hpos hneg))

/-! ## The numbers -/

/-- **A finite number of JavaScript**, zero without a sign. -/
def Double : Type := {x : ℚ // toDouble x = x}

namespace Double

instance : LinearOrder Double := inferInstanceAs (LinearOrder {x : ℚ // toDouble x = x})

instance : CoeOut Double ℚ := ⟨Subtype.val⟩

instance : Repr Double := ⟨fun a => reprPrec (a : ℚ)⟩

/-- The number that a literal denotes. -/
def ofRat (x : ℚ) : Double := ⟨toDouble x, toDouble_toDouble x⟩

instance : Zero Double := ⟨ofRat 0⟩

instance : One Double := ⟨ofRat 1⟩

instance (n : ℕ) : OfNat Double (n + 2) := ⟨ofRat (n + 2 : ℕ)⟩

instance : Add Double := ⟨fun a b => ofRat (a + b)⟩

instance : Sub Double := ⟨fun a b => ofRat (a - b)⟩

instance : Mul Double := ⟨fun a b => ofRat (a * b)⟩

instance : Div Double := ⟨fun a b => ofRat (a / b)⟩

/-- `+a.toFixed(d)`. -/
def toFixed (d : ℕ) (a : Double) : Double := ofRat (Logix.toFixed d a)

/-- `Math.round(a)`. -/
def mathRound (a : Double) : Double := ofRat (Logix.mathRound a)

variable {a b c e : Double} {as bs : List Double}

theorem val_ofRat (x : ℚ) : (ofRat x : ℚ) = toDouble x := rfl

theorem toDouble_val (a : Double) : toDouble a = a := a.2

@[simp] theorem ofRat_val (a : Double) : ofRat a = a := Subtype.ext a.2

@[simp] theorem val_zero : ((0 : Double) : ℚ) = 0 := toDouble_zero

theorem val_add (a b : Double) : ((a + b : Double) : ℚ) = toDouble (a + b) := rfl

theorem val_sub (a b : Double) : ((a - b : Double) : ℚ) = toDouble (a - b) := rfl

theorem val_le : a ≤ b ↔ (a : ℚ) ≤ b := Iff.rfl

theorem val_lt : a < b ↔ (a : ℚ) < b := Iff.rfl

theorem ofRat_mono {x y : ℚ} (h : x ≤ y) : ofRat x ≤ ofRat y := toDouble_mono h

theorem ofRat_nonneg {x : ℚ} (h : 0 ≤ x) : 0 ≤ ofRat x := ofRat_mono h

@[simp] protected theorem zero_add (a : Double) : 0 + a = a :=
  Subtype.ext (by rw [val_add, val_zero, zero_add, toDouble_val])

@[simp] protected theorem sub_zero (a : Double) : a - 0 = a :=
  Subtype.ext (by rw [val_sub, val_zero, sub_zero, toDouble_val])

@[simp] protected theorem sub_self (a : Double) : a - a = 0 :=
  Subtype.ext (by rw [val_sub, sub_self, toDouble_zero, val_zero])

protected theorem add_le_add_right (h : a ≤ b) (c : Double) : a + c ≤ b + c :=
  ofRat_mono (add_le_add_left (val_le.mp h) (c : ℚ))

protected theorem le_add_of_nonneg_right (h : 0 ≤ b) : a ≤ a + b := by
  rw [val_le, val_zero] at h
  calc (a : ℚ) = toDouble a := a.2.symm
    _ ≤ toDouble (a + b) := toDouble_mono (le_add_of_nonneg_right h)

protected theorem sub_le_sub_right (h : a ≤ b) (c : Double) : a - c ≤ b - c :=
  ofRat_mono (sub_le_sub_right (val_le.mp h) (c : ℚ))

protected theorem sub_le_self (h : 0 ≤ b) : a - b ≤ a := by
  rw [val_le, val_zero] at h
  calc toDouble (a - b) ≤ toDouble a := toDouble_mono (sub_le_self _ h)
    _ = a := a.2

protected theorem mul_le_mul_right (h : a ≤ b) (hc : 0 ≤ c) : a * c ≤ b * c := by
  rw [val_le, val_zero] at hc
  exact ofRat_mono (mul_le_mul_of_nonneg_right (val_le.mp h) hc)

protected theorem div_le_div_right (h : a ≤ b) (hc : 0 ≤ c) : a / c ≤ b / c := by
  rw [val_le, val_zero] at hc
  exact ofRat_mono (div_le_div_of_nonneg_right (val_le.mp h) hc)

/-- **A difference is zero only for equal numbers.** -/
protected theorem sub_eq_zero_iff : a - b = 0 ↔ a = b := by
  refine ⟨fun h => ?_, fun h => h ▸ Double.sub_self a⟩
  obtain ⟨n, hn⟩ := exists_toDouble_eq_mul a
  obtain ⟨m, hm⟩ := exists_toDouble_eq_mul b
  rw [toDouble_val] at hn hm
  have hzero : toDouble ((n - m : ℤ) * 2 ^ (-1074 : ℤ)) = 0 := by
    rw [Int.cast_sub, sub_mul, ← hn, ← hm, ← val_sub, h, val_zero]
  have heq : n = m := sub_eq_zero.mp (eq_zero_of_toDouble_eq_zero hzero)
  exact Subtype.ext (by rw [hn, hm, heq])

protected theorem sub_nonneg_of_le (h : b ≤ a) : 0 ≤ a - b := by
  rw [val_le, val_zero, val_sub]
  exact toDouble_nonneg (sub_nonneg.mpr h)

protected theorem sub_nonpos_of_le (h : a ≤ b) : a - b ≤ 0 := by
  rw [val_le, val_zero, val_sub, ← neg_nonneg, ← toDouble_neg]
  exact toDouble_nonneg (by rw [neg_sub]; exact sub_nonneg.mpr h)

protected theorem sub_nonneg : 0 ≤ a - b ↔ b ≤ a := by
  refine ⟨fun h => le_of_not_gt fun hlt => hlt.ne ?_, Double.sub_nonneg_of_le⟩
  exact Double.sub_eq_zero_iff.mp (le_antisymm (Double.sub_nonpos_of_le hlt.le) h)

protected theorem sub_nonpos : a - b ≤ 0 ↔ a ≤ b := by
  refine ⟨fun h => le_of_not_gt fun hlt => hlt.ne' ?_, Double.sub_nonpos_of_le⟩
  exact Double.sub_eq_zero_iff.mp (le_antisymm h (Double.sub_nonneg_of_le hlt.le))

protected theorem add_comm (a b : Double) : a + b = b + a :=
  congrArg ofRat (add_comm (a : ℚ) b)

@[simp] protected theorem add_zero (a : Double) : a + 0 = a := by
  rw [Double.add_comm, Double.zero_add]

protected theorem add_le_add (h : a ≤ b) (h' : c ≤ e) : a + c ≤ b + e :=
  ofRat_mono (add_le_add (val_le.mp h) (val_le.mp h'))

@[simp] protected theorem zero_mul (a : Double) : 0 * a = 0 :=
  Subtype.ext (by
    change toDouble ((0 : Double) * a) = (0 : Double)
    rw [val_zero, zero_mul, toDouble_zero])

@[simp] theorem val_one : ((1 : Double) : ℚ) = 1 := by
  have h := toDouble_intCast (k := 1) (by decide)
  exact_mod_cast h

@[simp] protected theorem mul_one (a : Double) : a * 1 = a :=
  Subtype.ext (by
    change toDouble (a * (1 : Double)) = a
    rw [val_one, mul_one, toDouble_val])

protected theorem mul_le_mul_left (h : a ≤ b) (hc : 0 ≤ c) : c * a ≤ c * b := by
  rw [val_le, val_zero] at hc
  exact ofRat_mono (mul_le_mul_of_nonneg_left (val_le.mp h) hc)

protected theorem mul_nonneg (ha : 0 ≤ a) (hb : 0 ≤ b) : 0 ≤ a * b := by
  rw [val_le, val_zero] at ha hb
  exact ofRat_nonneg (mul_nonneg ha hb)

protected theorem div_nonneg (ha : 0 ≤ a) (hb : 0 ≤ b) : 0 ≤ a / b := by
  rw [val_le, val_zero] at ha hb
  exact ofRat_nonneg (div_nonneg ha hb)

theorem toFixed_le_toFixed (d : ℕ) (h : a ≤ b) : a.toFixed d ≤ b.toFixed d :=
  ofRat_mono (toFixed_mono (val_le.mp h))

theorem toFixed_nonneg (d : ℕ) (h : 0 ≤ a) : 0 ≤ a.toFixed d := by
  rw [val_le, val_zero] at h
  exact ofRat_nonneg (Logix.toFixed_nonneg h)

/-! ## Totals -/

/-- The total of amounts that are added one after another. -/
def total (as : List Double) : Double := as.foldl (· + ·) 0

theorem foldl_add_mono (h : List.Forall₂ (· ≤ ·) as bs) (hab : a ≤ b) :
    as.foldl (· + ·) a ≤ bs.foldl (· + ·) b := by
  induction h generalizing a b with
  | nil => exact hab
  | cons hle _ ih => exact ih (Double.add_le_add hab hle)

theorem total_le_total (h : List.Forall₂ (· ≤ ·) as bs) : total as ≤ total bs :=
  foldl_add_mono h le_rfl

theorem foldl_add_le_of_sublist (h : as.Sublist bs) (hbs : ∀ b ∈ bs, 0 ≤ b) (hab : a ≤ b) :
    as.foldl (· + ·) a ≤ bs.foldl (· + ·) b := by
  induction h generalizing a b with
  | slnil => exact hab
  | cons c _ ih =>
    exact ih (fun b hb => hbs b (List.mem_cons_of_mem _ hb))
      (hab.trans (Double.le_add_of_nonneg_right (hbs c List.mem_cons_self)))
  | cons_cons c _ ih =>
    exact ih (fun b hb => hbs b (List.mem_cons_of_mem _ hb)) (Double.add_le_add_right hab c)

theorem total_le_of_sublist (h : as.Sublist bs) (hbs : ∀ b ∈ bs, 0 ≤ b) : total as ≤ total bs :=
  foldl_add_le_of_sublist h hbs le_rfl

theorem total_nonneg (has : ∀ a ∈ as, 0 ≤ a) : 0 ≤ total as :=
  total_le_of_sublist (List.nil_sublist as) has

theorem total_filter (as : List Double) : total (as.filter (· ≠ 0)) = total as := by
  have hfold : ∀ a : Double, (as.filter (· ≠ 0)).foldl (· + ·) a = as.foldl (· + ·) a := by
    induction as with
    | nil => exact fun a => rfl
    | cons b as ih =>
      intro a
      by_cases hb : b = 0
      · rw [List.filter_cons_of_neg (by simpa using hb), List.foldl_cons, hb, Double.add_zero, ih]
      · rw [List.filter_cons_of_pos (by simpa using hb), List.foldl_cons, List.foldl_cons, ih]
  exact hfold 0

theorem total_eq_of_alone (h : ∀ b ∈ as ++ bs, b = 0) : total (as ++ a :: bs) = a := by
  have hzero : ∀ l : List Double, (∀ b ∈ l, b = 0) → l.filter (· ≠ 0) = [] :=
    fun l hl => List.filter_eq_nil_iff.mpr fun b hb => by simpa using hl b hb
  rw [← total_filter, List.filter_append, List.filter_cons,
    hzero as fun _ hb => h _ (List.mem_append_left _ hb),
    hzero bs fun _ hb => h _ (List.mem_append_right _ hb)]
  by_cases ha : a = 0
  · rw [if_neg (by simpa using ha), ha]
    rfl
  · rw [if_pos (by simpa using ha)]
    exact Double.zero_add a

/-! ## Whole numbers and whole cents -/

/-- A whole number, so small that differences are exact. -/
def IsWhole (a : Double) : Prop := ∃ n : ℕ, n ≤ 2 ^ 53 ∧ (a : ℚ) = n

theorem IsWhole.nonneg (h : a.IsWhole) : 0 ≤ a := by
  obtain ⟨n, -, hn⟩ := h
  rw [val_le, val_zero, hn]
  exact Nat.cast_nonneg n

theorem IsWhole.min (ha : a.IsWhole) (hb : b.IsWhole) : (min a b).IsWhole := by
  rcases min_choice a b with h | h <;> rw [h] <;> assumption

theorem IsWhole.sub (ha : a.IsWhole) (hb : b.IsWhole) (h : b ≤ a) :
    (a - b).IsWhole ∧ ((a - b : Double) : ℚ) = a - b := by
  obtain ⟨n, hn, hna⟩ := ha
  obtain ⟨m, hm, hmb⟩ := hb
  rw [val_le, hna, hmb, Nat.cast_le] at h
  have hexact : ((a - b : Double) : ℚ) = a - b := by
    have hround := toDouble_intCast (k := n - m) (by rw [abs_of_nonneg] <;> omega)
    rw [val_sub, hna, hmb]
    exact_mod_cast hround
  refine ⟨⟨n - m, (Nat.sub_le n m).trans hn, ?_⟩, hexact⟩
  rw [hexact, hna, hmb, Nat.cast_sub h]

theorem IsWhole.add (ha : a.IsWhole) (hb : b.IsWhole) (h : (a + b : ℚ) ≤ 2 ^ 53) :
    (a + b).IsWhole ∧ ((a + b : Double) : ℚ) = a + b := by
  obtain ⟨n, -, hna⟩ := ha
  obtain ⟨m, -, hmb⟩ := hb
  have hnm : n + m ≤ 2 ^ 53 := by
    rw [hna, hmb] at h
    exact_mod_cast h
  have hexact : ((a + b : Double) : ℚ) = (n + m : ℕ) := by
    have hround := toDouble_intCast (k := (n + m : ℕ)) (by rw [abs_of_nonneg] <;> omega)
    rw [val_add, hna, hmb]
    exact_mod_cast hround
  exact ⟨⟨n + m, hnm, hexact⟩, hexact.trans (by rw [hna, hmb, Nat.cast_add])⟩

theorem IsWhole.mul (ha : a.IsWhole) (hb : b.IsWhole) (h : (a * b : ℚ) ≤ 2 ^ 53) :
    (a * b).IsWhole ∧ ((a * b : Double) : ℚ) = a * b := by
  obtain ⟨n, -, hna⟩ := ha
  obtain ⟨m, -, hmb⟩ := hb
  have hnm : n * m ≤ 2 ^ 53 := by
    rw [hna, hmb] at h
    exact_mod_cast h
  have hexact : ((a * b : Double) : ℚ) = (n * m : ℕ) := by
    have hround := toDouble_intCast (k := (n * m : ℕ)) (by rw [abs_of_nonneg] <;> omega)
    change toDouble (a * b) = _
    rw [hna, hmb]
    exact_mod_cast hround
  exact ⟨⟨n * m, hnm, hexact⟩, hexact.trans (by rw [hna, hmb, Nat.cast_mul])⟩

theorem IsWhole.foldl_add (ha : a.IsWhole) (has : ∀ b ∈ as, b.IsWhole)
    (h : (a + (as.map fun b : Double => (b : ℚ)).sum) ≤ 2 ^ 53) :
    (as.foldl (· + ·) a).IsWhole ∧
      ((as.foldl (· + ·) a : Double) : ℚ) = a + (as.map fun b : Double => (b : ℚ)).sum := by
  induction as generalizing a with
  | nil => exact ⟨ha, (add_zero _).symm⟩
  | cons b as ih =>
    obtain ⟨hb, has⟩ := List.forall_mem_cons.mp has
    have hrest : 0 ≤ (as.map fun b : Double => (b : ℚ)).sum := List.sum_nonneg fun x hx => by
      obtain ⟨c, hc, rfl⟩ := List.mem_map.mp hx
      exact val_zero ▸ val_le.mp (has c hc).nonneg
    rw [List.map_cons, List.sum_cons, ← add_assoc] at h ⊢
    obtain ⟨hadd, hval⟩ := ha.add hb ((le_add_of_nonneg_right hrest).trans h)
    rw [← hval] at h ⊢
    exact ih hadd has h

theorem total_of_isWhole (has : ∀ b ∈ as, b.IsWhole)
    (h : (as.map fun b : Double => (b : ℚ)).sum ≤ 2 ^ 53) :
    (total as).IsWhole ∧ (total as : ℚ) = (as.map fun b : Double => (b : ℚ)).sum := by
  have hzero : (0 : Double).IsWhole := ⟨0, Nat.zero_le _, by rw [val_zero, Nat.cast_zero]⟩
  have hsum := hzero.foldl_add has (by rwa [val_zero, zero_add])
  rwa [val_zero, zero_add] at hsum

/-- Whole numbers stay. -/
theorem IsWhole.toFixed (ha : a.IsWhole) (d : ℕ) : a.toFixed d = a := by
  obtain ⟨n, hn, hna⟩ := ha
  have hsmall : ¬ 10 ^ 21 ≤ (n : ℚ) := fun hbig => by
    have hle : (n : ℚ) ≤ 9007199254740992 := by exact_mod_cast hn
    norm_num at hbig
    linarith
  have hfloor : ⌊(n : ℚ) * 10 ^ d + 1 / 2⌋ = (n * 10 ^ d : ℤ) := by
    rw [Int.floor_eq_iff]
    push_cast
    constructor <;> linarith
  have hfixed : Logix.toFixed d n = n := by
    rw [toFixed_of_nonneg (Nat.cast_nonneg n), if_neg hsmall, hfloor]
    push_cast
    exact mul_div_cancel_right₀ _ (by positivity)
  refine (congrArg (fun x : ℚ => ofRat (Logix.toFixed d x)) hna).trans ?_
  rw [hfixed, ← hna, ofRat_val]

theorem isWhole_natCast {n : ℕ} (h : n ≤ 2 ^ 53) : (ofRat n).IsWhole :=
  ⟨n, h, by
    have hround := toDouble_intCast (k := n) (by rw [abs_of_nonneg] <;> omega)
    rw [val_ofRat]
    exact_mod_cast hround⟩

/-- Whole cents, few enough for the doubles to tell them apart. -/
def IsCents (a : Double) : Prop := ∃ n : ℕ, n ≤ 2 ^ 52 ∧ a = ofRat (n / 100)

/-- **Whole cents stay.** -/
theorem IsCents.toFixed_two (h : a.IsCents) : a.toFixed 2 = a := by
  obtain ⟨n, hn, rfl⟩ := h
  have hcast : (n : ℚ) ≤ 4503599627370496 := by exact_mod_cast hn
  have hnear : |toDouble (n / 100) - n / 100| ≤ 2 ^ (46 - 54 : ℤ) := by
    refine abs_toDouble_sub_le (by decide) ?_
    rw [abs_of_nonneg (by positivity), div_lt_iff₀ (by norm_num)]
    refine hcast.trans_lt ?_
    norm_num
  obtain ⟨hlo, hhi⟩ := abs_le.mp hnear
  norm_num at hlo hhi
  have hnonneg : 0 ≤ toDouble (n / 100 : ℚ) := toDouble_nonneg (by positivity)
  have hfixed : Logix.toFixed 2 (toDouble (n / 100)) = n / 100 := by
    have hfloor : ⌊toDouble (n / 100) * 10 ^ 2 + 1 / 2⌋ = (n : ℤ) := by
      rw [Int.floor_eq_iff]
      push_cast
      constructor <;> linarith
    have hsmall : ¬ 10 ^ 21 ≤ toDouble (n / 100 : ℚ) := fun hbig => by
      norm_num at hbig
      linarith
    rw [toFixed_of_nonneg hnonneg, if_neg hsmall, hfloor]
    norm_num
  exact congrArg ofRat hfixed

end Double

end Logix
