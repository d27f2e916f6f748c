import Mathlib.Data.List.Basic
import Mathlib.Tactic

/-!
# Strings of UTF-16 code units

ECMAScript strings as lists of code units, lone surrogates included:

* `chars`: the code points a `for … of` loop visits, each as one or two units;
* `byteLength`: the length of what `TextEncoder` writes, a lone surrogate
  becoming U+FFFD;
* `natText`: the decimal numeral of a natural number.
-/

namespace LemonModel.Text

/-- An ECMAScript string. -/
abbrev JSString := List UInt16

instance : LawfulBEq JSString := inferInstance

/-- The code unit of a character of the basic plane. -/
def unit (c : Char) : UInt16 := UInt16.ofNat c.toNat

/-- The code units of an ASCII literal. -/
def lit (s : String) : JSString := s.toList.map unit

def isHigh (u : UInt16) : Bool := 0xD800 ≤ u && u ≤ 0xDBFF

def isLow (u : UInt16) : Bool := 0xDC00 ≤ u && u ≤ 0xDFFF

/-- The code points of a string in order: a high surrogate and the low one
after it stay together, everything else stands alone. -/
def chars : JSString → List JSString
  | [] => []
  | [u] => [[u]]
  | u :: v :: rest =>
    if isHigh u && isLow v then [u, v] :: chars rest else [u] :: chars (v :: rest)

/-- UTF-8 bytes of a unit that is no half of a pair. -/
def unitBytes (u : UInt16) : Nat := if u < 0x80 then 1 else if u < 0x800 then 2 else 3

/-- `new TextEncoder().encode(value).length`. -/
def byteLength : JSString → Nat
  | [] => 0
  | [u] => unitBytes u
  | u :: v :: rest =>
    if isHigh u && isLow v then 4 + byteLength rest else unitBytes u + byteLength (v :: rest)

/-- `String(n)` for a natural number. -/
def natText (n : Nat) : JSString := (Nat.toDigits 10 n).map unit

@[simp] theorem chars_flatten (s : JSString) : (chars s).flatten = s := by
  induction s using chars.induct with
  | case1 => rfl
  | case2 u => rfl
  | case3 u v rest h ih => simp [chars, h, ih]
  | case4 u v rest h ih => simp [chars, h, ih]

@[simp] theorem byteLength_nil : byteLength [] = 0 := rfl

/-- Text of one-byte units counts one byte a unit. -/
theorem byteLength_ascii {s : JSString} (h : ∀ u ∈ s, u < 0x80) : byteLength s = s.length := by
  induction s using byteLength.induct with
  | case1 => rfl
  | case2 u => simp [byteLength, unitBytes, h u (by simp)]
  | case3 u v rest hp ih =>
    have hu := h u (by simp)
    simp only [isHigh, Bool.and_eq_true, decide_eq_true_eq] at hp
    exact absurd (UInt16.le_trans hp.1.1 (UInt16.le_of_lt hu)) (by decide)
  | case4 u v rest hp ih =>
    have hu := h u (by simp)
    simp only [byteLength, hp, unitBytes, hu, ↓reduceIte, List.length_cons,
      ih (fun w hw => h w (List.mem_cons_of_mem _ hw))]
    simp only [Bool.false_eq_true, ↓reduceIte]
    omega

/-! ## Numerals -/

/-- A decimal digit. -/
def isDigit (u : UInt16) : Bool := 48 ≤ u && u ≤ 57

/-- The number a run of digits writes. -/
def digitsValue (s : JSString) : Nat := s.foldl (fun n u => 10 * n + (u.toNat - 48)) 0

theorem unit_toNat {c : Char} (h : c.toNat < 65536) : (unit c).toNat = c.toNat := by
  simp only [unit, UInt16.toNat_ofNat']
  exact Nat.mod_eq_of_lt h

theorem digit_lt {c : Char} (h : c.isDigit = true) : c.toNat < 65536 := by
  exact Nat.lt_of_le_of_lt (Char.isDigit_iff_toNat.mp h).2 (by decide)

theorem natText_digits (n : Nat) : ∀ u ∈ natText n, isDigit u = true := by
  intro u hu
  obtain ⟨c, hc, rfl⟩ := List.mem_map.mp hu
  have hd := Nat.isDigit_of_mem_toDigits (by decide) (by decide) hc
  obtain ⟨lo, hi⟩ := Char.isDigit_iff_toNat.mp hd
  have e := unit_toNat (digit_lt hd)
  simp only [isDigit, Bool.and_eq_true, decide_eq_true_eq, UInt16.le_iff_toNat_le, e]
  exact ⟨lo, hi⟩

@[simp] theorem natText_ne_nil (n : Nat) : natText n ≠ [] := by simp [natText]

@[simp] theorem digitsValue_natText (n : Nat) : digitsValue (natText n) = n := by
  have key : ∀ (l : List Char) (m : Nat), (∀ c ∈ l, c.isDigit = true) →
      (l.map unit).foldl (fun n u => 10 * n + (u.toNat - 48)) m = Nat.ofDigitChars 10 l m := by
    intro l
    induction l with
    | nil => intro m _; simp
    | cons c cs ih =>
      intro m h
      have hc := unit_toNat (digit_lt (h c (by simp)))
      rw [List.map_cons, List.foldl_cons, Nat.ofDigitChars_cons, hc]
      exact ih _ fun d hd => h d (List.mem_cons_of_mem _ hd)
  unfold digitsValue natText
  rw [key _ _ fun c hc => Nat.isDigit_of_mem_toDigits (by decide) (by decide) hc]
  exact Nat.ofDigitChars_ten_toDigits

theorem natText_injective : Function.Injective natText :=
  Function.LeftInverse.injective digitsValue_natText

theorem digit_ascii {u : UInt16} (h : isDigit u = true) : u < 0x80 := by
  simp only [isDigit, Bool.and_eq_true, decide_eq_true_eq] at h
  exact UInt16.lt_of_le_of_lt h.2 (by decide)

end LemonModel.Text
