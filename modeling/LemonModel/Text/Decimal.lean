import LemonModel.Text.Utf16
import Mathlib.Algebra.Field.Rat

/-!
# Decimal numbers and their numerals

A finite double is identified with the shortest decimal that denotes it, which
is what `Number.prototype.toString` prints; `-0` prints as `0` and is the same
number here. Nothing rounds: a numeral denotes the decimal it writes.

* `Decimal.text`: the numeral ECMAScript prints;
* `scanNumber`: the JSON number grammar;
* `scanNumber_text`: a printed numeral scans back to its number.
-/

namespace LemonModel.Text

/-- `mant × 10 ^ exp`, with no trailing zero in `mant`. -/
structure Decimal where
  mant : Int
  exp : Int
  short : mant = 0 ∧ exp = 0 ∨ mant % 10 ≠ 0
  deriving DecidableEq

/-- The number a decimal is, to compare and to count with. -/
def Decimal.value (d : Decimal) : ℚ := d.mant * 10 ^ d.exp

/-- Move the trailing zeros of `m` into the exponent. -/
def dropZeros : Nat → Nat → Int → Nat × Int
  | 0, m, e => (m, e)
  | fuel + 1, m, e => if m % 10 = 0 then dropZeros fuel (m / 10) (e + 1) else (m, e)

theorem dropZeros_short (fuel m : Nat) (e : Int) (hm : 0 < m) (hf : m ≤ fuel) :
    (dropZeros fuel m e).1 % 10 ≠ 0 := by
  induction fuel generalizing m e with
  | zero => omega
  | succ fuel ih =>
    unfold dropZeros
    split
    · exact ih (m / 10) (e + 1) (by omega) (by omega)
    · assumption

theorem dropZeros_pow (fuel j m : Nat) (e : Int) (hm : m % 10 ≠ 0) (hf : j < fuel) :
    dropZeros fuel (m * 10 ^ j) e = (m, e + j) := by
  induction fuel generalizing j e with
  | zero => omega
  | succ fuel ih =>
    cases j with
    | zero => simp [dropZeros, hm]
    | succ j =>
      have hz : m * 10 ^ (j + 1) % 10 = 0 := by rw [pow_succ, ← mul_assoc]; simp
      have hd : m * 10 ^ (j + 1) / 10 = m * 10 ^ j := by rw [pow_succ, ← mul_assoc]; simp
      rw [dropZeros, if_pos hz, hd, ih j (e + 1) (by omega)]
      simp only [Prod.mk.injEq, true_and]
      omega

/-- The decimal `±m × 10 ^ e`. -/
def Decimal.scaled (neg : Bool) (m : Nat) (e : Int) : Decimal :=
  if h : m = 0 then ⟨0, 0, .inl ⟨rfl, rfl⟩⟩
  else
    ⟨if neg then -(dropZeros m m e).1 else (dropZeros m m e).1, (dropZeros m m e).2, by
      have := dropZeros_short m m e (Nat.pos_of_ne_zero h) (Nat.le_refl m)
      right
      split <;> omega⟩

/-- The number `n`. -/
def Decimal.ofNat (n : Nat) : Decimal := .scaled false n 0

theorem Decimal.scaled_short (d : Decimal) (h : d.mant ≠ 0) (j : Nat) :
    Decimal.scaled (decide (d.mant < 0)) (d.mant.natAbs * 10 ^ j) (d.exp - j) = d := by
  have hs : d.mant.natAbs % 10 ≠ 0 := by
    rcases d.short with hz | hz
    · exact absurd hz.1 h
    · omega
  have hpos : 0 < d.mant.natAbs * 10 ^ j :=
    Nat.mul_pos (Int.natAbs_pos.mpr h) (Nat.pow_pos (by decide))
  have hj : j < d.mant.natAbs * 10 ^ j :=
    Nat.lt_of_lt_of_le (Nat.lt_pow_self (by decide)) (Nat.le_mul_of_pos_left _ (Int.natAbs_pos.mpr h))
  obtain ⟨m, e, short⟩ := d
  simp only at hs hpos hj h
  simp only [scaled, Nat.pos_iff_ne_zero.mp hpos, ↓reduceDIte, dropZeros_pow _ j _ _ hs hj,
    decide_eq_true_eq, Decimal.mk.injEq]
  constructor
  · split <;> omega
  · omega

/-! ## Digits -/

theorem digitsValue_append (a b : JSString) :
    digitsValue (a ++ b) = digitsValue a * 10 ^ b.length + digitsValue b := by
  have key : ∀ (s : JSString) (m : Nat),
      s.foldl (fun n u => 10 * n + (u.toNat - 48)) m = m * 10 ^ s.length + digitsValue s := by
    intro s
    induction s with
    | nil => intro m; simp [digitsValue]
    | cons u s ih =>
      intro m
      simp only [digitsValue, List.foldl_cons, List.length_cons] at ih ⊢
      rw [ih, ih (10 * 0 + _)]
      ring
  rw [digitsValue, List.foldl_append, key]
  rfl

@[simp] theorem digitsValue_zeros (n : Nat) : digitsValue (List.replicate n 48) = 0 := by
  induction n with
  | zero => rfl
  | succ n ih =>
    rw [List.replicate_succ, ← List.singleton_append, digitsValue_append, ih]
    simp [digitsValue]

theorem digitsValue_lt {s : JSString} (h : ∀ u ∈ s, isDigit u = true) :
    digitsValue s < 10 ^ s.length := by
  induction s using List.reverseRecOn with
  | nil => simp [digitsValue]
  | append_singleton s u ih =>
    have hs := ih fun v hv => h v (List.mem_append_left _ hv)
    have hu := h u (by simp)
    simp only [isDigit, Bool.and_eq_true, decide_eq_true_eq, UInt16.le_iff_toNat_le] at hu
    have hu' : digitsValue [u] ≤ 9 := by
      simp only [digitsValue, List.foldl_cons, List.foldl_nil]
      have : u.toNat ≤ 57 := hu.2
      omega
    rw [digitsValue_append, List.length_append, List.length_singleton, pow_succ]
    omega

/-- A numeral has no leading zero. -/
theorem natText_head {n : Nat} (hn : 0 < n) {u : UInt16} {s : JSString}
    (h : natText n = u :: s) : u ≠ 48 := by
  rintro rfl
  have hv := digitsValue_natText n
  have hd : ∀ v ∈ s, isDigit v = true := fun v hv =>
    natText_digits n v (by rw [h]; exact List.mem_cons_of_mem _ hv)
  have hlt := digitsValue_lt hd
  rw [h, ← List.singleton_append, digitsValue_append] at hv
  have hlen : (Nat.toDigits 10 n).length = s.length + 1 := by
    have := congrArg List.length h
    simpa [natText] using this
  simp only [digitsValue, List.foldl_cons, List.foldl_nil] at hv hlt
  have hnlt : n < 10 ^ s.length := by
    rw [← hv]
    simpa using hlt
  cases hs : s with
  | nil => rw [hs] at hnlt; simp at hnlt; omega
  | cons v r =>
    have := (Nat.length_toDigits_le_iff (b := 10) (n := n) (k := s.length) (by decide)
      (by rw [hs]; simp)).mpr hnlt
    omega

/-! ## Printing -/

/-- Digits `ds` scaled by `10 ^ e`, laid out as `Number.prototype.toString` does. -/
def numeral (ds : JSString) (e : Int) : JSString :=
  let n := ds.length + e
  if 0 ≤ e ∧ n ≤ 21 then ds ++ List.replicate e.toNat 48
  else if 0 < n ∧ n ≤ 21 then ds.take n.toNat ++ unit '.' :: ds.drop n.toNat
  else if -6 < n ∧ n ≤ 0 then 48 :: unit '.' :: (List.replicate (-n).toNat 48 ++ ds)
  else
    let power := unit 'e' :: (if n - 1 < 0 then unit '-' else unit '+') :: natText (n - 1).natAbs
    ds.take 1 ++ (if ds.length = 1 then power else unit '.' :: (ds.drop 1 ++ power))

/-- `Number.prototype.toString`. -/
def Decimal.text (d : Decimal) : JSString :=
  if d.mant = 0 then [48]
  else (if d.mant < 0 then [unit '-'] else []) ++ numeral (natText d.mant.natAbs) d.exp

/-! ## Scanning -/

/-- The digits of the integer part; a zero may only stand alone. -/
def scanInt (s : JSString) : Option (JSString × JSString) :=
  let ds := s.takeWhile isDigit
  if ds = [] ∨ ds.head? = some 48 ∧ ds.length ≠ 1 then none else some (ds, s.dropWhile isDigit)

/-- The digits after a point, if there is one. -/
def scanFrac (s : JSString) : Option (JSString × JSString) :=
  if s.head? = some (unit '.') then
    let ds := s.tail.takeWhile isDigit
    if ds = [] then none else some (ds, s.tail.dropWhile isDigit)
  else some ([], s)

/-- The power of ten, if there is one. -/
def scanExp (s : JSString) : Option (Int × JSString) :=
  if s.head? = some (unit 'e') ∨ s.head? = some (unit 'E') then
    let neg := s.tail.head? = some (unit '-')
    let s := if neg ∨ s.tail.head? = some (unit '+') then s.tail.tail else s.tail
    let ds := s.takeWhile isDigit
    if ds = [] then none
    else some (if neg then -(digitsValue ds : Int) else digitsValue ds, s.dropWhile isDigit)
  else some (0, s)

/-- One JSON number and what follows it. -/
def scanNumber (s : JSString) : Option (Decimal × JSString) := do
  let neg := decide (s.head? = some (unit '-'))
  let (i, s) ← scanInt (if neg then s.tail else s)
  let (f, s) ← scanFrac s
  let (e, s) ← scanExp s
  some (.scaled neg (digitsValue (i ++ f)) (e - f.length), s)

/-- No unit that would continue a number comes next. -/
def NumberEnds (s : JSString) : Prop :=
  ∀ u, s.head? = some u → isDigit u = false ∧ u ≠ unit '.' ∧ u ≠ unit 'e' ∧ u ≠ unit 'E'

theorem takeWhile_digits {ds s : JSString} (hd : ∀ u ∈ ds, isDigit u = true)
    (hs : ∀ u, s.head? = some u → isDigit u = false) :
    (ds ++ s).takeWhile isDigit = ds ∧ (ds ++ s).dropWhile isDigit = s := by
  induction ds with
  | nil =>
    cases s with
    | nil => simp
    | cons u s => simp [hs u rfl]
  | cons d ds ih =>
    have := ih fun u hu => hd u (List.mem_cons_of_mem _ hu)
    simp [hd d (by simp), this]

theorem scanInt_digits {ds s : JSString} (hd : ∀ u ∈ ds, isDigit u = true) (hne : ds ≠ [])
    (hz : ds.head? = some 48 → ds.length = 1) (hs : ∀ u, s.head? = some u → isDigit u = false) :
    scanInt (ds ++ s) = some (ds, s) := by
  obtain ⟨ht, hr⟩ := takeWhile_digits hd hs
  simp only [scanInt, ht, hr]
  rw [if_neg]
  rintro (h | ⟨h, hl⟩)
  · exact hne h
  · exact hl (hz h)

theorem scanFrac_none {s : JSString} (h : ∀ u, s.head? = some u → u ≠ unit '.') :
    scanFrac s = some ([], s) := by
  rw [scanFrac, if_neg]
  exact fun he => h _ he rfl

theorem scanFrac_digits {ds s : JSString} (hd : ∀ u ∈ ds, isDigit u = true) (hne : ds ≠ [])
    (hs : ∀ u, s.head? = some u → isDigit u = false) :
    scanFrac (unit '.' :: (ds ++ s)) = some (ds, s) := by
  obtain ⟨ht, hr⟩ := takeWhile_digits hd hs
  simp [scanFrac, ht, hr, hne]

theorem scanExp_none {s : JSString}
    (h : ∀ u, s.head? = some u → u ≠ unit 'e' ∧ u ≠ unit 'E') : scanExp s = some (0, s) := by
  rw [scanExp, if_neg]
  rintro (he | he)
  · exact (h _ he).1 rfl
  · exact (h _ he).2 rfl

theorem scanExp_power (x : Int) {s : JSString} (hs : ∀ u, s.head? = some u → isDigit u = false) :
    scanExp (unit 'e' :: (if x < 0 then unit '-' else unit '+') :: (natText x.natAbs ++ s)) =
      some (x, s) := by
  obtain ⟨ht, hr⟩ := takeWhile_digits (natText_digits x.natAbs) hs
  by_cases hx : x < 0
  · simp [scanExp, hx, ht, hr, abs_of_neg hx]
  · have hpm : unit '+' ≠ unit '-' := by decide
    simp [scanExp, hx, ht, hr, hpm, abs_of_nonneg (not_lt.mp hx)]

/-! ## The layouts of a number -/

/-- `w` scans as the value `n` scaled by `10 ^ e`, and leaves `s`. -/
def Scans (w s : JSString) (n : Nat) (e : Int) : Prop :=
  ∃ i f x r t, scanInt w = some (i, r) ∧ scanFrac r = some (f, t) ∧ scanExp t = some (x, s) ∧
    ∃ j : Nat, digitsValue (i ++ f) = n * 10 ^ j ∧ x - f.length = e - j

section Layouts

variable {ds s : JSString} (e : Int)

theorem NumberEnds.not_digit (hs : NumberEnds s) :
    ∀ u, s.head? = some u → isDigit u = false := fun u hu => (hs u hu).1

theorem NumberEnds.no_point (hs : NumberEnds s) : scanFrac s = some ([], s) :=
  scanFrac_none fun u hu => (hs u hu).2.1

theorem NumberEnds.no_power (hs : NumberEnds s) : scanExp s = some (0, s) :=
  scanExp_none fun u hu => (hs u hu).2.2

theorem point_not_digit (r : JSString) :
    ∀ u, (unit '.' :: r).head? = some u → isDigit u = false := by
  intro u hu
  obtain rfl : unit '.' = u := by simpa using hu
  decide

theorem zeros_digits (n : Nat) : ∀ u ∈ List.replicate n (48 : UInt16), isDigit u = true := by
  intro u hu
  rw [(List.mem_replicate.mp hu).2]
  decide

/-- All digits, then zeros. -/
theorem scans_zeros (hd : ∀ u ∈ ds, isDigit u = true) (hne : ds ≠ []) (hz : ds.head? ≠ some 48)
    (hs : NumberEnds s) (he : 0 ≤ e) :
    Scans (ds ++ List.replicate e.toNat 48 ++ s) s (digitsValue ds) e := by
  refine ⟨ds ++ List.replicate e.toNat 48, [], 0, s, s, ?_, hs.no_point, hs.no_power,
    e.toNat, ?_, ?_⟩
  · refine scanInt_digits ?_ (by simp [hne]) ?_ hs.not_digit
    · intro u hu
      rcases List.mem_append.mp hu with hu | hu
      · exact hd u hu
      · exact zeros_digits _ u hu
    · intro h
      rw [List.head?_append_of_ne_nil _ hne] at h
      exact absurd h hz
  · rw [List.append_nil, digitsValue_append, digitsValue_zeros, List.length_replicate]
    rfl
  · simp only [List.length_nil]
    omega

/-- A point inside the digits. -/
theorem scans_inside (hd : ∀ u ∈ ds, isDigit u = true) (hne : ds ≠ []) (hz : ds.head? ≠ some 48)
    (hs : NumberEnds s) (he : e < 0) (hn : 0 < ds.length + e) :
    Scans (ds.take (ds.length + e).toNat ++ unit '.' :: ds.drop (ds.length + e).toNat ++ s) s
      (digitsValue ds) e := by
  have htake : ds.take (ds.length + e).toNat ≠ [] := by
    simp only [ne_eq, List.take_eq_nil_iff, not_or]
    exact ⟨by omega, hne⟩
  refine ⟨ds.take (ds.length + e).toNat, ds.drop (ds.length + e).toNat, 0,
    unit '.' :: (ds.drop (ds.length + e).toNat ++ s), s, ?_, ?_, hs.no_power, 0, ?_, ?_⟩
  · rw [List.append_assoc, List.cons_append]
    refine scanInt_digits (fun u hu => hd u (List.mem_of_mem_take hu)) htake ?_
      (point_not_digit _)
    intro h
    rw [List.head?_take] at h
    split at h
    · cases h
    · exact absurd h hz
  · refine scanFrac_digits (fun u hu => hd u (List.mem_of_mem_drop hu)) ?_ hs.not_digit
    simp only [ne_eq, List.drop_eq_nil_iff, not_le]
    omega
  · simp
  · simp only [List.length_drop]
    omega

/-- Zeros after the point. -/
theorem scans_below (hd : ∀ u ∈ ds, isDigit u = true) (hne : ds ≠ []) (hs : NumberEnds s)
    (hn : ds.length + e ≤ 0) :
    Scans (48 :: unit '.' :: (List.replicate (-(ds.length + e)).toNat 48 ++ ds) ++ s) s
      (digitsValue ds) e := by
  refine ⟨[48], List.replicate (-(ds.length + e)).toNat 48 ++ ds, 0,
    unit '.' :: ((List.replicate (-(ds.length + e)).toNat 48 ++ ds) ++ s), s, ?_, ?_,
    hs.no_power, 0, ?_, ?_⟩
  · exact @scanInt_digits [48] _ (by simp [isDigit]) (by simp) (by simp) (point_not_digit _)
  · refine scanFrac_digits ?_ (by simp [hne]) hs.not_digit
    intro u hu
    rcases List.mem_append.mp hu with hu | hu
    · exact zeros_digits _ u hu
    · exact hd u hu
  · rw [digitsValue_append, digitsValue_append, digitsValue_zeros]
    simp [digitsValue]
  · simp only [List.length_append, List.length_replicate]
    omega

/-- One digit, the rest after the point, and the power. -/
theorem scans_power {d : UInt16} {r : JSString} (hd : ∀ u ∈ d :: r, isDigit u = true)
    (hs : NumberEnds s) (x : Int) (hx : x = (d :: r).length + e - 1) :
    let power := unit 'e' :: (if x < 0 then unit '-' else unit '+') :: natText x.natAbs
    Scans (d :: (if r = [] then power else unit '.' :: (r ++ power)) ++ s) s
      (digitsValue (d :: r)) e := by
  intro power
  have hpow : ∀ u, (power ++ s).head? = some u → isDigit u = false ∧ u ≠ unit '.' := by
    intro u hu
    obtain rfl : unit 'e' = u := by simpa [power] using hu
    decide
  have scanned : scanExp (power ++ s) = some (x, s) := scanExp_power x hs.not_digit
  cases r with
  | nil =>
    refine ⟨[d], [], x, power ++ s, power ++ s, ?_, scanFrac_none fun u hu => (hpow u hu).2,
      scanned, 0, by simp, ?_⟩
    · exact @scanInt_digits [d] _ hd (by simp) (by simp) fun u hu => (hpow u hu).1
    · simp only [List.length_singleton, List.length_nil] at hx ⊢
      omega
  | cons c r =>
    refine ⟨[d], c :: r, x, unit '.' :: ((c :: r) ++ (power ++ s)), power ++ s, ?_,
      scanFrac_digits (fun u hu => hd u (List.mem_cons_of_mem _ hu)) (by simp)
        fun u hu => (hpow u hu).1, scanned, 0, by simp, ?_⟩
    · rw [if_neg (by simp), List.cons_append, List.cons_append, List.append_assoc]
      exact @scanInt_digits [d] _ (fun u hu => hd u (by simp_all)) (by simp) (by simp)
        (point_not_digit _)
    · simp only [List.length_cons] at hx ⊢
      omega

end Layouts

/-- A laid-out run of digits scans back to the digits' value and exponent. -/
theorem scan_numeral {n : Nat} (hn : 0 < n) (e : Int) {s : JSString} (hs : NumberEnds s) :
    Scans (numeral (natText n) e ++ s) s n e := by
  have hd := natText_digits n
  have hne := natText_ne_nil n
  have hz : (natText n).head? ≠ some 48 := by
    cases hds : natText n with
    | nil => simp
    | cons u r => simpa using natText_head hn hds
  have hv := digitsValue_natText n
  generalize natText n = ds at *
  obtain rfl := hv
  unfold numeral
  simp only
  split
  · rename_i h
    exact scans_zeros e hd hne hz hs h.1
  · split
    · rename_i h₁ h₂
      exact scans_inside e hd hne hz hs (by omega) h₂.1
    · split
      · rename_i h₁ h₂ h₃
        exact scans_below e hd hne hs h₃.2
      · obtain ⟨d, r, rfl⟩ : ∃ d r, ds = d :: r := List.exists_cons_of_ne_nil hne
        have alone : (d :: r).length = 1 ↔ r = [] := by simp
        simp only [alone]
        exact scans_power e hd hs _ rfl

/-- **A printed number scans back to itself.** -/
theorem scanNumber_text (d : Decimal) {s : JSString} (hs : NumberEnds s) :
    scanNumber (d.text ++ s) = some (d, s) := by
  by_cases h0 : d.mant = 0
  · obtain ⟨m, e, short⟩ := d
    obtain rfl : m = 0 := h0
    obtain rfl : e = 0 := by
      rcases short with h | h
      · exact h.2
      · exact absurd rfl h
    have hi : scanInt ([48] ++ s) = some ([48], s) :=
      scanInt_digits (by simp [isDigit]) (by simp) (by simp) fun u hu => (hs u hu).1
    have hsign : decide ((48 : UInt16) = unit '-') = false := by decide
    simp only [List.cons_append, List.nil_append] at hi
    simp [scanNumber, Decimal.text, hsign, hi, scanFrac_none fun u hu => (hs u hu).2.1,
      scanExp_none fun u hu => (hs u hu).2.2, Decimal.scaled, digitsValue]
  · obtain ⟨i, f, x, r, t, hi, hf, hx, j, hv, he⟩ :=
      scan_numeral (Int.natAbs_pos.mpr h0) d.exp hs
    have hd := d.scaled_short h0 j
    by_cases hneg : d.mant < 0
    · simp only [hneg, decide_true] at hd
      simp [scanNumber, Decimal.text, h0, hneg, hi, hf, hx, hv, he, hd]
    · have ht : d.text ++ s = numeral (natText d.mant.natAbs) d.exp ++ s := by
        simp [Decimal.text, h0, hneg]
      rw [ht]
      generalize numeral (natText d.mant.natAbs) d.exp ++ s = w at hi ⊢
      have hsign : w.head? ≠ some (unit '-') := by
        intro hc
        obtain ⟨rest, rfl⟩ : ∃ rest, w = unit '-' :: rest := by
          cases w with
          | nil => cases hc
          | cons u rest => exact ⟨rest, by simpa using hc⟩
        have hm : isDigit (unit '-') = false := by decide
        simp [scanInt, hm] at hi
      simp only [hneg, decide_false] at hd
      simp [scanNumber, hsign, hi, hf, hx, hv, he, hd]

end LemonModel.Text
