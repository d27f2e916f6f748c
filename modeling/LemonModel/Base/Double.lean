import Mathlib.Algebra.Order.Ring.Rat
import Mathlib.Data.Int.Log
import Mathlib.Data.Rat.Floor
import Mathlib.Order.WithBot
import Mathlib.Tactic

/-!
# Doubles

Binary floating point numbers of 64 bits. A finite one is a rational; a result is rounded to
the nearest, ties to even, and is infinite beyond the largest. There is one zero.
-/

namespace LemonModel

/-! ## Rounding -/

/-- The nearest integer, of two the even one. -/
def roundEven (q : ℚ) : ℤ :=
  if Int.fract q < 1 / 2 then ⌊q⌋
  else if 1 / 2 < Int.fract q then ⌊q⌋ + 1
  else if Even ⌊q⌋ then ⌊q⌋ else ⌊q⌋ + 1

/-- The exponent of the last of the 53 bits of a number. -/
def gridExponent (q : ℚ) : ℤ := max (Int.log 2 |q| - 52) (-1074)

/-- The nearest number of 53 bits. -/
def nearest (q : ℚ) : ℚ := roundEven (q / 2 ^ gridExponent q) * 2 ^ gridExponent q

section

variable {q r : ℚ} {n : ℤ}

theorem floor_le_roundEven (q : ℚ) : ⌊q⌋ ≤ roundEven q := by
  unfold roundEven
  split
  · exact le_refl _
  · split
    · omega
    · split <;> omega

theorem roundEven_le_floor_add_one (q : ℚ) : roundEven q ≤ ⌊q⌋ + 1 := by
  unfold roundEven
  split
  · omega
  · split
    · exact le_refl _
    · split <;> omega

@[simp]
theorem roundEven_intCast (n : ℤ) : roundEven n = n := by
  simp [roundEven]

theorem roundEven_mono (h : q ≤ r) : roundEven q ≤ roundEven r := by
  rcases (Int.floor_le_floor h).lt_or_eq with apart | same
  · calc roundEven q ≤ ⌊q⌋ + 1 := roundEven_le_floor_add_one q
      _ ≤ ⌊r⌋ := apart
      _ ≤ roundEven r := floor_le_roundEven r
  · have fract : Int.fract q ≤ Int.fract r := by
      rw [Int.fract, Int.fract, same]
      exact sub_le_sub_right h _
    unfold roundEven
    rw [same]
    split
    · split
      · exact le_refl _
      · split
        · omega
        · split <;> omega
    · rename_i big
      rw [if_neg fun small => big (fract.trans_lt small)]
      split
      · rename_i bigger
        rw [if_pos (bigger.trans_le fract)]
      · split
        · split
          · omega
          · exact le_refl _
        · split <;> exact le_refl _

theorem le_roundEven (h : (n : ℚ) ≤ q) : n ≤ roundEven q := by
  rw [← roundEven_intCast n]
  exact roundEven_mono h

theorem roundEven_le (h : q ≤ n) : roundEven q ≤ n := by
  rw [← roundEven_intCast n]
  exact roundEven_mono h

/-! ## Numbers of 53 bits -/

theorem two_zpow_pos (e : ℤ) : (0 : ℚ) < 2 ^ e := zpow_pos two_pos e

@[simp]
theorem nearest_zero : nearest 0 = 0 := by
  have zero := roundEven_intCast 0
  rw [Int.cast_zero] at zero
  rw [nearest, zero_div, zero, Int.cast_zero, zero_mul]

theorem zpow_multiple {g e : ℤ} (h : g ≤ e) : ∃ n : ℤ, (2 : ℚ) ^ e = n * 2 ^ g := by
  refine ⟨2 ^ (e - g).toNat, ?_⟩
  push_cast
  rw [← zpow_natCast, ← zpow_add₀ two_ne_zero]
  congr 1
  omega

/-- A multiple of the last bit is not moved. -/
theorem nearest_of_multiple (h : q = n * 2 ^ gridExponent q) : nearest q = q := by
  have pos := (two_zpow_pos (gridExponent q)).ne'
  have quotient : q / 2 ^ gridExponent q = n := by
    rw [div_eq_iff pos]
    exact h
  rw [nearest, quotient, roundEven_intCast]
  exact h.symm

theorem abs_lt_grid (q : ℚ) : |q| < 2 ^ (gridExponent q + 53) := by
  have log := Int.lt_zpow_succ_log_self one_lt_two |q|
  refine log.trans_le (zpow_le_zpow_right₀ one_le_two ?_)
  have := le_max_left (Int.log 2 |q| - 52) (-1074)
  unfold gridExponent
  omega

theorem gridExponent_le {e : ℤ} (bound : |q| < 2 ^ (e + 53)) (lowest : -1074 ≤ e) (ne : q ≠ 0) :
    gridExponent q ≤ e := by
  have log := (Int.lt_zpow_iff_log_lt one_lt_two (abs_pos.mpr ne)).mp bound
  exact max_le (by omega) lowest

/-- A number of 53 bits is not moved. -/
theorem nearest_exact {e : ℤ} (bound : |n| ≤ 2 ^ 53) (lowest : -1074 ≤ e) :
    nearest (n * 2 ^ e) = n * 2 ^ e := by
  -- the carry is a number of one bit
  have strict {n e : ℤ} (bound : |n| < 2 ^ 53) (lowest : -1074 ≤ e) :
      nearest (n * 2 ^ e) = n * 2 ^ e := by
    by_cases zero : n = 0
    · simp [zero]
    have pos := two_zpow_pos e
    have ne : (n : ℚ) * 2 ^ e ≠ 0 := mul_ne_zero (Int.cast_ne_zero.mpr zero) pos.ne'
    have small : |(n : ℚ) * 2 ^ e| < 2 ^ (e + 53) := by
      rw [abs_mul, abs_of_pos pos, add_comm, zpow_add₀ two_ne_zero]
      apply mul_lt_mul_of_pos_right _ pos
      exact_mod_cast bound
    have le := gridExponent_le small lowest ne
    obtain ⟨m, multiple⟩ := zpow_multiple le
    apply nearest_of_multiple (n := n * m)
    rw [Int.cast_mul, mul_assoc, ← multiple]
  rcases bound.lt_or_eq with less | carry
  · exact strict less lowest
  · rcases abs_eq (by norm_num) |>.mp carry with rfl | rfl
    · have := @strict 1 (e + 53) (by norm_num) (by omega)
      rw [zpow_add₀ two_ne_zero] at this
      push_cast at this ⊢
      rw [mul_comm]
      simpa using this
    · have := @strict (-1) (e + 53) (by norm_num) (by omega)
      rw [zpow_add₀ two_ne_zero] at this
      push_cast at this ⊢
      rw [mul_comm]
      simpa using this

theorem abs_roundEven_le (q : ℚ) : |roundEven (q / 2 ^ gridExponent q)| ≤ 2 ^ 53 := by
  have pos := two_zpow_pos (gridExponent q)
  have bound : |q / 2 ^ gridExponent q| ≤ ((2 ^ 53 : ℤ) : ℚ) := by
    rw [abs_div, abs_of_pos pos, div_le_iff₀ pos]
    have := (abs_lt_grid q).le
    rw [add_comm, zpow_add₀ two_ne_zero] at this
    exact_mod_cast this
  obtain ⟨low, high⟩ := abs_le.mp bound
  refine abs_le.mpr ⟨le_roundEven ?_, roundEven_le high⟩
  push_cast at low ⊢
  exact low

/-- What was rounded is a number of 53 bits. -/
@[simp]
theorem nearest_nearest (q : ℚ) : nearest (nearest q) = nearest q :=
  nearest_exact (abs_roundEven_le q) (le_max_right _ _)

theorem nearest_natCast {n : ℕ} (few : n ≤ 2 ^ 53) : nearest n = n := by
  have bound : |(n : ℤ)| ≤ 2 ^ 53 := by
    rw [Nat.abs_cast]
    exact_mod_cast few
  have := nearest_exact (e := 0) bound (by norm_num)
  simpa using this

/-! ## Order -/

theorem nearest_nonneg (h : 0 ≤ q) : 0 ≤ nearest q := by
  have pos := two_zpow_pos (gridExponent q)
  refine mul_nonneg ?_ pos.le
  have quotient : ((0 : ℤ) : ℚ) ≤ q / 2 ^ gridExponent q := by
    rw [Int.cast_zero]
    exact div_nonneg h pos.le
  exact_mod_cast le_roundEven quotient

theorem nearest_le_multiple (h : q ≤ n * 2 ^ gridExponent q) :
    nearest q ≤ n * 2 ^ gridExponent q := by
  have pos := two_zpow_pos (gridExponent q)
  apply mul_le_mul_of_nonneg_right _ pos.le
  exact_mod_cast roundEven_le ((div_le_iff₀ pos).mpr h)

theorem multiple_le_nearest (h : n * 2 ^ gridExponent q ≤ q) :
    n * 2 ^ gridExponent q ≤ nearest q := by
  have pos := two_zpow_pos (gridExponent q)
  apply mul_le_mul_of_nonneg_right _ pos.le
  exact_mod_cast le_roundEven ((le_div_iff₀ pos).mpr h)

/-- **Rounding keeps the order.** -/
theorem nearest_mono (nonneg : 0 ≤ q) (h : q ≤ r) : nearest q ≤ nearest r := by
  rcases nonneg.eq_or_lt with rfl | qpos
  · rw [nearest_zero]
    exact nearest_nonneg h
  have rpos := qpos.trans_le h
  have log : Int.log 2 q ≤ Int.log 2 r := Int.log_mono_right qpos h
  have gridq : gridExponent q = max (Int.log 2 q - 52) (-1074) := by
    rw [gridExponent, abs_of_pos qpos]
  have gridr : gridExponent r = max (Int.log 2 r - 52) (-1074) := by
    rw [gridExponent, abs_of_pos rpos]
  by_cases same : gridExponent q = gridExponent r
  · rw [nearest, nearest, same]
    have pos := two_zpow_pos (gridExponent r)
    apply mul_le_mul_of_nonneg_right _ pos.le
    exact_mod_cast roundEven_mono (div_le_div_of_nonneg_right h pos.le)
  -- the greater number has more bits, so a power of two lies between them
  · have top : gridExponent r = Int.log 2 r - 52 := by omega
    have between : q ≤ 2 ^ Int.log 2 r := by
      refine (Int.lt_zpow_succ_log_self one_lt_two q).le.trans ?_
      exact zpow_le_zpow_right₀ one_le_two (by omega)
    have below : (2 : ℚ) ^ Int.log 2 r ≤ r := Int.zpow_log_le_self one_lt_two rpos
    obtain ⟨m, lower⟩ := zpow_multiple (g := gridExponent q) (e := Int.log 2 r) (by omega)
    obtain ⟨n, upper⟩ := zpow_multiple (g := gridExponent r) (e := Int.log 2 r) (by omega)
    calc nearest q ≤ m * 2 ^ gridExponent q := nearest_le_multiple (lower ▸ between)
      _ = n * 2 ^ gridExponent r := lower.symm.trans upper
      _ ≤ nearest r := multiple_le_nearest (upper ▸ below)

end

/-! ## Doubles -/

inductive Double where
  | finite (q : ℚ) (exact : nearest q = q ∧ |q| < 2 ^ 1024)
  | infinity (negative : Bool)
  | nan
  deriving DecidableEq

namespace Double

/-- The double of a result. -/
def ofRat (q : ℚ) : Double :=
  if h : |nearest q| < 2 ^ 1024 then .finite (nearest q) ⟨nearest_nearest q, h⟩
  else .infinity (q < 0)

instance (n : ℕ) : OfNat Double n := ⟨ofRat n⟩

def IsFinite : Double → Prop
  | .finite .. => True
  | _ => False

instance (a : Double) : Decidable a.IsFinite := by
  cases a <;> unfold IsFinite <;> infer_instance

/-- Where a number lies; NaN is no number. -/
def place : Double → Option (WithBot (WithTop ℚ))
  | .finite q _ => some (q : WithTop ℚ)
  | .infinity true => some ⊥
  | .infinity false => some (⊤ : WithTop ℚ)
  | .nan => none

/-- No comparison with NaN holds. -/
instance : LE Double := ⟨fun a b => ∃ x ∈ a.place, ∃ y ∈ b.place, x ≤ y⟩

instance : LT Double := ⟨fun a b => ∃ x ∈ a.place, ∃ y ∈ b.place, x < y⟩

instance : DecidableLE Double := fun a b =>
  inferInstanceAs (Decidable (∃ x ∈ a.place, ∃ y ∈ b.place, x ≤ y))

instance : DecidableLT Double := fun a b =>
  inferInstanceAs (Decidable (∃ x ∈ a.place, ∃ y ∈ b.place, x < y))

/-- `===`; NaN is not equal to itself. -/
def StrictEq (a b : Double) : Prop := a = b ∧ a ≠ nan

instance (a b : Double) : Decidable (a.StrictEq b) :=
  inferInstanceAs (Decidable (a = b ∧ a ≠ nan))

/-- `Math.max` -/
def max (a b : Double) : Double :=
  if a = nan ∨ b = nan then nan else if a < b then b else a

/-- `Math.min` -/
def min (a b : Double) : Double :=
  if a = nan ∨ b = nan then nan else if b < a then b else a

/-- `Math.round`: half-way up. -/
def round : Double → Double
  | .finite q _ => ofRat ⌊q + 1 / 2⌋
  | a => a

def add : Double → Double → Double
  | .finite a _, .finite b _ => ofRat (a + b)
  | .infinity s, .finite _ _ => .infinity s
  | .finite _ _, .infinity s => .infinity s
  | .infinity s, .infinity t => if s = t then .infinity s else nan
  | _, _ => nan

def mul : Double → Double → Double
  | .finite a _, .finite b _ => ofRat (a * b)
  | .infinity s, .finite a _ | .finite a _, .infinity s =>
    if a = 0 then nan else .infinity (s != decide (a < 0))
  | .infinity s, .infinity t => .infinity (s != t)
  | _, _ => nan

def div : Double → Double → Double
  | .finite a _, .finite b _ =>
    if b ≠ 0 then ofRat (a / b) else if a = 0 then nan else .infinity (a < 0)
  | .infinity s, .finite a _ => .infinity (s != decide (a < 0))
  | .finite _ _, .infinity _ => 0
  | _, _ => nan

instance : Add Double := ⟨add⟩

instance : Mul Double := ⟨mul⟩

instance : Div Double := ⟨div⟩

/-- Added up from the left. -/
def sum (l : List Double) : Double := l.foldl (· + ·) 0

/-! ## Comparisons -/

variable {a b c : Double} {q r : ℚ}

theorem place_none : a.place = none ↔ a = nan := by
  cases a with
  | infinity negative => cases negative <;> simp [place]
  | _ => simp [place]

theorem exists_place (h : a ≠ nan) : ∃ x, a.place = some x :=
  Option.ne_none_iff_exists'.mp (place_none.not.mpr h)

protected theorem le_refl (h : a ≠ nan) : a ≤ a := by
  obtain ⟨x, at_⟩ := exists_place h
  exact ⟨x, at_, x, at_, le_refl x⟩

protected theorem le_trans (h : a ≤ b) (h' : b ≤ c) : a ≤ c := by
  obtain ⟨x, ha, y, hb, first⟩ := h
  obtain ⟨y', hb', z, hc, second⟩ := h'
  obtain rfl := Option.some.inj (hb.symm.trans hb')
  exact ⟨x, ha, z, hc, first.trans second⟩

protected theorem le_of_not_lt (ha : a ≠ nan) (hb : b ≠ nan) (h : ¬ a < b) : b ≤ a := by
  obtain ⟨x, ha⟩ := exists_place ha
  obtain ⟨y, hb⟩ := exists_place hb
  exact ⟨y, hb, x, ha, not_lt.mp fun less => h ⟨x, ha, y, hb, less⟩⟩

protected theorem le_of_lt (h : a < b) : a ≤ b := by
  obtain ⟨x, ha, y, hb, less⟩ := h
  exact ⟨x, ha, y, hb, less.le⟩

protected theorem lt_of_le_of_lt (h : a ≤ b) (h' : b < c) : a < c := by
  obtain ⟨x, ha, y, hb, first⟩ := h
  obtain ⟨y', hb', z, hc, second⟩ := h'
  obtain rfl := Option.some.inj (hb.symm.trans hb')
  exact ⟨x, ha, z, hc, first.trans_lt second⟩

theorem number_of_le (h : a ≤ b) : a ≠ nan ∧ b ≠ nan := by
  obtain ⟨x, ha, y, hb, -⟩ := h
  constructor
  · rintro rfl
    cases ha
  · rintro rfl
    cases hb

@[simp]
theorem finite_le_finite {hq : nearest q = q ∧ |q| < 2 ^ 1024}
    {hr : nearest r = r ∧ |r| < 2 ^ 1024} : finite q hq ≤ finite r hr ↔ q ≤ r := by
  constructor
  · rintro ⟨x, hx, y, hy, h⟩
    obtain rfl := Option.some.inj hx
    obtain rfl := Option.some.inj hy
    exact_mod_cast h
  · exact fun h => ⟨_, rfl, _, rfl, by exact_mod_cast h⟩

@[simp]
theorem finite_lt_finite {hq : nearest q = q ∧ |q| < 2 ^ 1024}
    {hr : nearest r = r ∧ |r| < 2 ^ 1024} : finite q hq < finite r hr ↔ q < r := by
  constructor
  · rintro ⟨x, hx, y, hy, h⟩
    obtain rfl := Option.some.inj hx
    obtain rfl := Option.some.inj hy
    exact_mod_cast h
  · exact fun h => ⟨_, rfl, _, rfl, by exact_mod_cast h⟩

theorem le_infinity (h : a ≠ nan) : a ≤ infinity false := by
  obtain ⟨x, at_⟩ := exists_place h
  exact ⟨x, at_, _, rfl, le_top⟩

theorem eq_of_infinity_le (h : infinity false ≤ a) : a = infinity false := by
  obtain ⟨x, top, y, ha, h⟩ := h
  obtain rfl := Option.some.inj top
  obtain rfl : y = ⊤ := top_le_iff.mp h
  cases a with
  | finite q _ => simp [place] at ha
  | infinity negative => cases negative <;> simp [place] at ha ⊢
  | nan => cases ha

theorem ofRat_finite {h : nearest q = q ∧ |q| < 2 ^ 1024} : ofRat q = finite q h := by
  unfold ofRat
  simp only [h.1]
  exact dif_pos h.2

theorem zero_eq_ofRat : (0 : Double) = ofRat 0 := by
  show ofRat ((0 : ℕ) : ℚ) = _
  rw [Nat.cast_zero]

theorem zero_exact : nearest 0 = 0 ∧ |(0 : ℚ)| < 2 ^ 1024 := ⟨nearest_zero, by norm_num⟩

theorem zero_eq : (0 : Double) = finite 0 zero_exact := zero_eq_ofRat.trans ofRat_finite

theorem one_eq : (1 : Double) = ofRat 1 := by
  show ofRat ((1 : ℕ) : ℚ) = _
  rw [Nat.cast_one]

theorem zero_number : (0 : Double) ≠ nan := by
  simp [zero_eq]

/-- What is at least 0 is finite or infinity. -/
theorem nonneg_iff : 0 ≤ a ↔ (∃ q h, a = finite q h ∧ 0 ≤ q) ∨ a = infinity false := by
  rw [zero_eq]
  constructor
  · intro h
    cases a with
    | finite q hq => exact .inl ⟨q, hq, rfl, finite_le_finite.mp h⟩
    | infinity negative =>
      cases negative with
      | true =>
        obtain ⟨x, hx, y, hy, h⟩ := h
        obtain rfl := Option.some.inj hx
        obtain rfl := Option.some.inj hy
        simp at h
      | false => exact .inr rfl
    | nan => exact absurd rfl (number_of_le h).2
  · rintro (⟨q, hq, rfl, nonneg⟩ | rfl)
    · exact finite_le_finite.mpr nonneg
    · exact le_infinity (by simp)

theorem ofRat_mono (nonneg : 0 ≤ q) (h : q ≤ r) : ofRat q ≤ ofRat r := by
  have le := nearest_mono nonneg h
  have qpos := nearest_nonneg nonneg
  have abs : |nearest q| ≤ |nearest r| := by
    rwa [abs_of_nonneg qpos, abs_of_nonneg (qpos.trans le)]
  unfold ofRat
  simp only [not_lt.mpr nonneg, not_lt.mpr (nonneg.trans h), decide_false]
  split
  · split
    · exact finite_le_finite.mpr le
    · exact le_infinity (by simp)
  · rename_i large
    rw [dif_neg fun small => large (abs.trans_lt small)]
    exact Double.le_refl (by simp)

theorem ofRat_nonneg (h : 0 ≤ q) : 0 ≤ ofRat q := by
  have := ofRat_mono (le_refl 0) h
  rwa [ofRat_finite (h := zero_exact), ← zero_eq] at this

protected theorem zero_le_one : (0 : Double) ≤ 1 := one_eq ▸ ofRat_nonneg zero_le_one

theorem max_of_nonneg (h : 0 ≤ a) : max 0 a = a := by
  unfold max
  rw [if_neg (by simp [zero_number, (number_of_le h).2])]
  split
  · rfl
  · rename_i not_pos
    rcases nonneg_iff.mp h with ⟨q, hq, rfl, nonneg⟩ | rfl
    · rw [zero_eq, finite_lt_finite, not_lt] at not_pos
      obtain rfl := not_pos.antisymm nonneg
      exact zero_eq
    · exact absurd (by decide +kernel) not_pos

theorem max_number (ha : a ≠ nan) (hb : b ≠ nan) : a ≤ max a b ∧ b ≤ max a b := by
  rw [max, if_neg (by simp [ha, hb])]
  split
  · rename_i less
    exact ⟨Double.le_of_lt less, Double.le_refl hb⟩
  · rename_i not_less
    exact ⟨Double.le_refl ha, Double.le_of_not_lt ha hb not_less⟩

theorem min_number (ha : a ≠ nan) (hb : b ≠ nan) : min a b ≤ a ∧ min a b ≤ b := by
  rw [min, if_neg (by simp [ha, hb])]
  split
  · rename_i less
    exact ⟨Double.le_of_lt less, Double.le_refl hb⟩
  · rename_i not_less
    exact ⟨Double.le_refl ha, Double.le_of_not_lt hb ha not_less⟩

theorem le_min (h : c ≤ a) (h' : c ≤ b) : c ≤ min a b := by
  rw [min, if_neg (by simp [(number_of_le h).2, (number_of_le h').2])]
  split
  · exact h'
  · exact h

theorem max_le (h : a ≤ c) (h' : b ≤ c) : max a b ≤ c := by
  rw [max, if_neg (by simp [(number_of_le h).1, (number_of_le h').1])]
  split
  · exact h'
  · exact h

theorem finite_of_le (nonneg : 0 ≤ a) (h : a ≤ b) (finite : b.IsFinite) : a.IsFinite := by
  rcases nonneg_iff.mp nonneg with ⟨q, hq, rfl, -⟩ | rfl
  · trivial
  · rw [eq_of_infinity_le h] at finite
    exact finite.elim

theorem finite_iff : a.IsFinite ↔ ∃ q h, a = finite q h := by
  cases a with
  | finite q h => exact ⟨fun _ => ⟨q, h, rfl⟩, fun _ => trivial⟩
  | _ => simp [IsFinite]

theorem number_of_finite (h : a.IsFinite) : a ≠ nan := by
  rintro rfl
  exact h

theorem ofRat_number : ofRat q ≠ nan := by
  unfold ofRat
  split <;> simp

theorem round_number (h : a ≠ nan) : a.round ≠ nan := by
  cases a with
  | finite q hq => exact ofRat_number
  | infinity negative => exact h
  | nan => exact h

theorem mul_number (ha : a.IsFinite) (hb : b.IsFinite) : a * b ≠ nan := by
  obtain ⟨q, hq, rfl⟩ := finite_iff.mp ha
  obtain ⟨r, hr, rfl⟩ := finite_iff.mp hb
  exact ofRat_number

/-! ## Sums -/

theorem add_number (ha : a.IsFinite) (hb : b ≠ nan) : a + b ≠ nan := by
  obtain ⟨q, hq, rfl⟩ := finite_iff.mp ha
  cases b with
  | finite r hr => exact ofRat_number
  | infinity negative => exact Double.noConfusion
  | nan => exact absurd rfl hb

protected theorem add_nonneg (ha : 0 ≤ a) (hb : 0 ≤ b) : 0 ≤ a + b := by
  rcases nonneg_iff.mp ha with ⟨q, hq, rfl, nonneg⟩ | rfl <;>
    rcases nonneg_iff.mp hb with ⟨r, hr, rfl, nonneg'⟩ | rfl
  · exact ofRat_nonneg (add_nonneg nonneg nonneg')
  · exact hb
  · exact ha
  · exact ha

theorem add_mono {a' b' : Double} (ha : 0 ≤ a) (h : a ≤ a') (hb : 0 ≤ b) (h' : b ≤ b') :
    a + b ≤ a' + b' := by
  have ha' := Double.le_trans ha h
  have hb' := Double.le_trans hb h'
  have sum := (number_of_le (Double.add_nonneg ha hb)).2
  rcases nonneg_iff.mp ha' with ⟨q', hq', rfl, nonneg⟩ | rfl <;>
    rcases nonneg_iff.mp hb' with ⟨r', hr', rfl, nonneg'⟩ | rfl
  · rcases nonneg_iff.mp ha with ⟨q, hq, rfl, nonneg⟩ | rfl
    · rcases nonneg_iff.mp hb with ⟨r, hr, rfl, nonneg'⟩ | rfl
      · exact ofRat_mono (add_nonneg nonneg nonneg')
          (add_le_add (finite_le_finite.mp h) (finite_le_finite.mp h'))
      · cases eq_of_infinity_le h'
    · cases eq_of_infinity_le h
  · exact le_infinity sum
  · exact le_infinity sum
  · exact le_infinity sum

theorem abs_lt_of_le (nonneg : 0 ≤ q) (h : q ≤ 2 ^ 53) : |q| < 2 ^ 1024 := by
  rw [abs_of_nonneg nonneg]
  exact h.trans_lt (pow_lt_pow_right₀ one_lt_two (by norm_num))

theorem ofRat_natCast {n : ℕ} (few : n ≤ 2 ^ 53) : ∃ h, ofRat n = finite n h :=
  ⟨⟨nearest_natCast few, abs_lt_of_le n.cast_nonneg (by exact_mod_cast few)⟩, ofRat_finite⟩

theorem add_natCast {m n : ℕ} (few : m + n ≤ 2 ^ 53) :
    ofRat m + ofRat n = ofRat (m + n : ℕ) := by
  obtain ⟨hm, eqm⟩ := ofRat_natCast (n := m) (by omega)
  obtain ⟨hn, eqn⟩ := ofRat_natCast (n := n) (by omega)
  rw [eqm, eqn, Nat.cast_add]
  rfl

/-- Sums keep the order, and do not fall below 0. -/
theorem sum_mono {l l' : List Double} (h : List.Forall₂ (fun a b => 0 ≤ a ∧ a ≤ b) l l') :
    0 ≤ sum l ∧ sum l ≤ sum l' := by
  have general : ∀ s s' : Double, 0 ≤ s → s ≤ s' →
      0 ≤ l.foldl (· + ·) s ∧ l.foldl (· + ·) s ≤ l'.foldl (· + ·) s' := by
    induction h with
    | nil => exact fun s s' nonneg le => ⟨nonneg, le⟩
    | cons first _ ih =>
      exact fun s s' nonneg le =>
        ih _ _ (Double.add_nonneg nonneg first.1) (add_mono nonneg le first.1 first.2)
  have zero : (0 : Double) ≤ 0 := Double.le_refl zero_number
  exact general 0 0 zero zero

/-- Whole numbers that 53 bits hold are added up exactly. -/
theorem sum_natCast {l : List ℕ} (few : l.sum ≤ 2 ^ 53) :
    sum (l.map fun n : ℕ => ofRat n) = ofRat l.sum := by
  have general : ∀ s : ℕ, s + l.sum ≤ 2 ^ 53 →
      (l.map fun n : ℕ => ofRat n).foldl (· + ·) (ofRat s) = ofRat (s + l.sum : ℕ) := by
    clear few
    induction l with
    | nil => exact fun s _ => rfl
    | cons n l ih =>
      intro s few
      rw [List.sum_cons] at few ⊢
      rw [List.map_cons, List.foldl_cons, add_natCast (by omega), ih _ (by omega), add_assoc]
  have := general 0 (by omega)
  rwa [zero_add, Nat.cast_zero, ← zero_eq_ofRat] at this

/-! ## Quotients -/

theorem div_finite (hq : nearest q = q ∧ |q| < 2 ^ 1024) (hr : nearest r = r ∧ |r| < 2 ^ 1024)
    (ne : r ≠ 0) : finite q hq / finite r hr = ofRat (q / r) := if_pos ne

theorem pos_finite (h : 0 < b) (finite : b.IsFinite) : ∃ r hr, b = .finite r hr ∧ 0 < r := by
  obtain ⟨r, hr, rfl⟩ := finite_iff.mp finite
  rw [zero_eq, finite_lt_finite] at h
  exact ⟨r, hr, rfl, h⟩

theorem div_mono (nonneg : 0 ≤ a) (h : a ≤ b) (finite : b.IsFinite) (hc : 0 < c)
    (finite' : c.IsFinite) : 0 ≤ a / c ∧ a / c ≤ b / c := by
  obtain ⟨q, hq, rfl⟩ := finite_iff.mp (finite_of_le nonneg h finite)
  obtain ⟨r, hr, rfl⟩ := finite_iff.mp finite
  obtain ⟨s, hs, rfl, pos⟩ := pos_finite hc finite'
  rw [zero_eq, finite_le_finite] at nonneg
  rw [div_finite hq hs pos.ne', div_finite hr hs pos.ne']
  have quotient := div_nonneg nonneg pos.le
  exact ⟨ofRat_nonneg quotient,
    ofRat_mono quotient (div_le_div_of_nonneg_right (finite_le_finite.mp h) pos.le)⟩

/-- A quotient of whole numbers that 53 bits hold does not round up to 1. -/
theorem div_lt_one {m n : ℕ} (less : m < n) (few : n ≤ 2 ^ 53) : ofRat m / ofRat n < 1 := by
  obtain ⟨hm, eqm⟩ := ofRat_natCast (n := m) (by omega)
  obtain ⟨hn, eqn⟩ := ofRat_natCast few
  have pos : (0 : ℚ) < n := by exact_mod_cast Nat.zero_lt_of_lt less
  -- the greatest double below 1
  obtain ⟨top, below, exact, le⟩ : ∃ top < 1, nearest top = top ∧ (m : ℚ) / n ≤ top := by
    refine ⟨(2 ^ 53 - 1 : ℤ) * 2 ^ (-53 : ℤ), by norm_num,
      nearest_exact (by norm_num) (by norm_num), ?_⟩
    rw [div_le_iff₀ pos]
    have few' : (n : ℚ) ≤ 2 ^ 53 := by exact_mod_cast few
    have less' : (m : ℚ) ≤ n - 1 := by
      rw [le_sub_iff_add_le]
      exact_mod_cast less
    norm_num
    linarith
  have nonneg := div_nonneg (Nat.cast_nonneg m) pos.le
  have small := abs_lt_of_le (nonneg.trans le) (below.le.trans (by norm_num))
  have near : ofRat top = finite top ⟨exact, small⟩ := ofRat_finite
  obtain ⟨h1, one⟩ := ofRat_natCast (n := 1) (by norm_num)
  rw [eqm, eqn, div_finite hm hn pos.ne', one_eq, ← Nat.cast_one, one]
  refine Double.lt_of_le_of_lt (ofRat_mono nonneg le) ?_
  rw [near, finite_lt_finite, Nat.cast_one]
  exact below

protected theorem div_self (hc : 0 < c) (finite : c.IsFinite) : c / c = 1 := by
  obtain ⟨r, hr, rfl, pos⟩ := pos_finite hc finite
  rw [div_finite hr hr pos.ne', div_self pos.ne', one_eq]

end Double

end LemonModel
