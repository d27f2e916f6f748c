import LemonModel.Text.Json

/-!
# The size of a document's text

How many UTF-8 bytes a string literal takes: those of the string, two quotes, and what
escaping adds.
-/

namespace LemonModel.Text

/-! ## Concatenation -/

theorem byteLength_cons {u : UInt16} (h : isHigh u = false) (s : JSString) :
    byteLength (u :: s) = unitBytes u + byteLength s := by
  cases s with
  | nil => simp [byteLength]
  | cons v rest => simp [byteLength, h]

theorem isHigh_ascii {u : UInt16} (h : u < 0x80) : isHigh u = false := by
  by_contra high
  simp only [isHigh, Bool.and_eq_true, decide_eq_true_eq, Bool.not_eq_false] at high
  exact absurd (UInt16.le_trans high.1 (UInt16.le_of_lt h)) (by decide)

/-- Text that is ASCII. -/
def Ascii (s : JSString) : Prop := ∀ u ∈ s, u < 0x80

theorem byteLength_ascii_append {a : JSString} (h : Ascii a) (s : JSString) :
    byteLength (a ++ s) = a.length + byteLength s := by
  induction a with
  | nil => simp
  | cons u a ih =>
    obtain ⟨hu, ha⟩ := List.forall_mem_cons.mp h
    rw [List.cons_append, byteLength_cons (isHigh_ascii hu), ih ha, unitBytes, if_pos hu,
      List.length_cons]
    omega

/-- Nothing joins with what follows unless that starts with a low surrogate. -/
theorem byteLength_append (s : JSString) {b : JSString} (h : ∀ v ∈ b.head?, isLow v = false) :
    byteLength (s ++ b) = byteLength s + byteLength b := by
  induction s using byteLength.induct with
  | case1 => simp
  | case2 u =>
    cases b with
    | nil => simp
    | cons v b =>
      have low := h v rfl
      simp only [List.singleton_append, byteLength, low, Bool.and_false, Bool.false_eq_true,
        if_false]
  | case3 u v rest pair ih =>
    simp only [List.cons_append, byteLength, pair, if_true, ih]
    omega
  | case4 u v rest pair ih =>
    simp only [List.cons_append, byteLength, pair] at ih ⊢
    simp only [Bool.false_eq_true, if_false, ih]
    omega

/-! ## Characters -/

theorem byteLength_eq_sum (s : JSString) : byteLength s = ((chars s).map byteLength).sum := by
  induction s using chars.induct with
  | case1 => rfl
  | case2 u => simp [chars, byteLength]
  | case3 u v rest pair ih => simp [chars, byteLength, pair, ih]
  | case4 u v rest pair ih => simp [chars, byteLength, pair, ih]

theorem chars_ne_nil (s : JSString) : ∀ char ∈ chars s, char ≠ [] := by
  induction s using chars.induct with
  | case1 => simp [chars]
  | case2 u => simp [chars]
  | case3 u v rest pair ih => simpa [chars, pair] using ih
  | case4 u v rest pair ih => simpa [chars, pair] using ih

theorem chars_append (s : JSString) {b : JSString} (h : ∀ v ∈ b.head?, isLow v = false) :
    chars (s ++ b) = chars s ++ chars b := by
  induction s using chars.induct with
  | case1 => rfl
  | case2 u =>
    cases b with
    | nil => rfl
    | cons v b =>
      have low := h v rfl
      simp only [List.singleton_append, chars, low, Bool.and_false, Bool.false_eq_true, if_false]
  | case3 u v rest pair ih => simp only [List.cons_append, chars, pair, if_true, ih]
  | case4 u v rest pair ih =>
    simp only [List.cons_append, chars, pair, Bool.false_eq_true, if_false] at ih ⊢
    rw [ih]

/-- A string cut between two of its characters has the same characters. -/
theorem chars_cut {s : JSString} {a b : List JSString} (h : chars s = a ++ b) :
    chars a.flatten = a ∧ chars b.flatten = b := by
  induction s using chars.induct generalizing a with
  | case1 =>
    obtain ⟨rfl, rfl⟩ := List.append_eq_nil_iff.mp h.symm
    exact ⟨rfl, rfl⟩
  | case2 u =>
    rcases List.append_eq_singleton_iff.mp h.symm with ⟨rfl, rfl⟩ | ⟨rfl, rfl⟩
    · exact ⟨rfl, rfl⟩
    · exact ⟨rfl, rfl⟩
  | case3 u v rest pair ih =>
    cases a with
    | nil =>
      rw [List.nil_append] at h
      exact ⟨rfl, by rw [← h, chars_flatten]⟩
    | cons c a =>
      rw [chars, if_pos pair, List.cons_append, List.cons.injEq] at h
      obtain ⟨rfl, h⟩ := h
      obtain ⟨first, second⟩ := ih h
      exact ⟨by simp [chars, pair, first], second⟩
  | case4 u v rest pair ih =>
    cases a with
    | nil =>
      rw [List.nil_append] at h
      exact ⟨rfl, by rw [← h, chars_flatten]⟩
    | cons c a =>
      rw [chars, if_neg pair, List.cons_append, List.cons.injEq] at h
      obtain ⟨rfl, h⟩ := h
      obtain ⟨first, second⟩ := ih h
      refine ⟨?_, second⟩
      -- what follows `u` in `a`, if anything does, is `v`
      have joined : a.flatten ++ b.flatten = v :: rest := by
        rw [← List.flatten_append, ← h, chars_flatten]
      cases rest' : a.flatten with
      | nil =>
        rw [rest'] at first
        simp [chars, ← first]
      | cons w x =>
        rw [rest', List.cons_append, List.cons.injEq] at joined
        obtain ⟨rfl, -⟩ := joined
        rw [List.flatten_cons, rest', List.singleton_append, chars, if_neg pair, ← rest', first]

theorem isLow_of_isHigh {u : UInt16} (h : isHigh u = true) : isLow u = false := by
  by_contra low
  simp only [isHigh, isLow, Bool.and_eq_true, decide_eq_true_eq, Bool.not_eq_false] at h low
  exact absurd (UInt16.le_trans low.1 h.2) (by decide)

/-- No pair of surrogates is cut where a string is cut between two of its characters. -/
theorem no_pair_cut {s : JSString} {a b : List JSString} (h : chars s = a ++ b) {u v : UInt16}
    (last : a.flatten.getLast? = some u) (first : b.flatten.head? = some v) :
    (isHigh u && isLow v) = false := by
  obtain ⟨before, ha⟩ := List.getLast?_eq_some_iff.mp last
  obtain ⟨after, hb⟩ := List.head?_eq_some_iff.mp first
  obtain ⟨ca, cb⟩ := chars_cut h
  by_contra pair
  rw [Bool.not_eq_false] at pair
  have high : isLow u = false := isLow_of_isHigh (Bool.and_eq_true_iff.mp pair).1
  have whole : chars s = chars before ++ [u, v] :: chars after := by
    rw [← chars_flatten s, h, List.flatten_append, ha, hb, List.append_assoc,
      List.singleton_append, chars_append before (by simp [high]), chars, if_pos pair]
  rw [h, ← ca, ha, chars_append before (by simp [high]), List.append_assoc] at whole
  have := List.append_cancel_left whole
  simp [chars] at this

/-! ## String literals -/

/-- A unit with a two-unit escape. -/
def ShortEscaped (u : UInt16) : Prop :=
  u = unit '"' ∨ u = unit '\\' ∨ u = 8 ∨ u = 9 ∨ u = 10 ∨ u = 12 ∨ u = 13

instance (u : UInt16) : Decidable (ShortEscaped u) := by
  unfold ShortEscaped
  infer_instance

/-- What escaping a unit that is no half of a pair adds. -/
def escapedUnit (u : UInt16) : Nat :=
  if ShortEscaped u then 1
  else if u < 32 then 5
  else if isHigh u || isLow u then 3
  else 0

/-- The bytes escaping adds to a string. -/
def escapedBytes : JSString → Nat
  | [] => 0
  | [u] => escapedUnit u
  | u :: v :: rest =>
    if isHigh u && isLow v then escapedBytes rest else escapedUnit u + escapedBytes (v :: rest)

theorem digitUnit_ascii {n : Nat} (h : n < 36) : digitUnit n < 0x80 := by
  unfold digitUnit
  split
  · interval_cases n <;> decide
  · interval_cases n <;> decide

theorem unicodeEscape_ascii (u : UInt16) : Ascii (unicodeEscape u) := by
  have small := u.toNat_lt
  intro v mem
  simp only [unicodeEscape, List.mem_cons, List.not_mem_nil, or_false] at mem
  rcases mem with rfl | rfl | rfl | rfl | rfl | rfl
  · decide
  · decide
  · exact digitUnit_ascii (by omega)
  · exact digitUnit_ascii (by omega)
  · exact digitUnit_ascii (by omega)
  · exact digitUnit_ascii (by omega)

theorem unitBytes_surrogate {u : UInt16} (h : (isHigh u || isLow u) = true) : unitBytes u = 3 := by
  have high : ¬ u < 0x800 := by
    intro lt
    simp only [isHigh, isLow, Bool.or_eq_true, Bool.and_eq_true, decide_eq_true_eq] at h
    rcases h with ⟨low, -⟩ | ⟨low, -⟩
    · exact absurd (UInt16.le_trans low (UInt16.le_of_lt lt)) (by decide)
    · exact absurd (UInt16.le_trans low (UInt16.le_of_lt lt)) (by decide)
  have higher : ¬ u < 0x80 := fun lt => high (UInt16.lt_trans lt (by decide))
  rw [unitBytes, if_neg higher, if_neg high]

theorem quoteUnit_short {u : UInt16} (h : ShortEscaped u) :
    u < 0x80 ∧ ∃ v, v < 0x80 ∧ quoteUnit u = [unit '\\', v] := by
  rcases h with rfl | rfl | rfl | rfl | rfl | rfl | rfl
  · exact ⟨by decide, unit '"', by decide, by decide⟩
  · exact ⟨by decide, unit '\\', by decide, by decide⟩
  · exact ⟨by decide, unit 'b', by decide, by decide⟩
  · exact ⟨by decide, unit 't', by decide, by decide⟩
  · exact ⟨by decide, unit 'n', by decide, by decide⟩
  · exact ⟨by decide, unit 'f', by decide, by decide⟩
  · exact ⟨by decide, unit 'r', by decide, by decide⟩

theorem quoteUnit_other {u : UInt16} (h : ¬ ShortEscaped u) :
    quoteUnit u = if u < 32 || isHigh u || isLow u then unicodeEscape u else [u] := by
  simp only [ShortEscaped, not_or] at h
  obtain ⟨h₁, h₂, h₃, h₄, h₅, h₆, h₇⟩ := h
  rw [quoteUnit, if_neg h₁, if_neg h₂, if_neg h₃, if_neg h₆, if_neg h₅, if_neg h₇, if_neg h₄]

theorem byteLength_quoteUnit (u : UInt16) (s : JSString) :
    byteLength (quoteUnit u ++ s) = unitBytes u + escapedUnit u + byteLength s := by
  have six := byteLength_ascii_append (unicodeEscape_ascii u) s
  have size : (unicodeEscape u).length = 6 := rfl
  unfold escapedUnit
  by_cases short : ShortEscaped u
  · obtain ⟨ascii, v, hv, quoted⟩ := quoteUnit_short short
    have two : Ascii [unit '\\', v] := by simp [Ascii, hv, show unit '\\' < 0x80 by decide]
    rw [quoted, byteLength_ascii_append two, if_pos short, unitBytes, if_pos ascii]
    rfl
  · rw [if_neg short, quoteUnit_other short]
    by_cases control : u < 32
    · rw [if_pos (by simp [control]), if_pos control, six, unitBytes,
        if_pos (UInt16.lt_trans control (by decide))]
      omega
    · rw [if_neg control]
      by_cases surrogate : (isHigh u || isLow u) = true
      · rw [if_pos (by simp [Bool.or_assoc, surrogate]), if_pos surrogate, six,
          unitBytes_surrogate surrogate]
        omega
      · have plain : isHigh u = false ∧ isLow u = false := by simpa using surrogate
        rw [if_neg (by simp [control, plain.1, plain.2]), if_neg surrogate, List.singleton_append,
          byteLength_cons plain.1]
        omega

theorem byteLength_quoteUnits (s : JSString) :
    byteLength (quoteUnits s) = byteLength s + escapedBytes s := by
  induction s using quoteUnits.induct with
  | case1 => rfl
  | case2 u =>
    have one := byteLength_quoteUnit u []
    rw [List.append_nil] at one
    simpa [quoteUnits, escapedBytes, byteLength] using one
  | case3 u v rest pair ih =>
    simp only [quoteUnits, escapedBytes, byteLength, pair, if_true, ih]
    omega
  | case4 u v rest pair ih =>
    simp only [quoteUnits, escapedBytes, byteLength, pair, Bool.false_eq_true, if_false]
    rw [byteLength_quoteUnit, ih]
    omega

/-- The bytes of a string literal without its quotes. -/
def literalBytes (s : JSString) : Nat := byteLength s + escapedBytes s

/-- A literal and what follows it. -/
theorem byteLength_quote_append (s t : JSString) :
    byteLength (quote s ++ t) = literalBytes s + 2 + byteLength t := by
  have mark : isLow (unit '"') = false := by decide
  have open_ : Ascii [unit '"'] := by simp [Ascii, show unit '"' < 0x80 by decide]
  have shape : quote s ++ t = [unit '"'] ++ (quoteUnits s ++ ([unit '"'] ++ t)) := by
    simp [quote]
  rw [shape, byteLength_ascii_append open_, byteLength_append _ (by simp [mark]),
    byteLength_quoteUnits, byteLength_ascii_append open_, literalBytes]
  simp only [List.length_singleton]
  omega

/-! ## Numerals -/

theorem natText_ascii (n : Nat) : Ascii (natText n) :=
  fun u mem => digit_ascii (natText_digits n u mem)

theorem Ascii.append {a b : JSString} (ha : Ascii a) (hb : Ascii b) : Ascii (a ++ b) :=
  fun u mem => (List.mem_append.mp mem).elim (ha u) (hb u)

theorem Ascii.cons {u : UInt16} {a : JSString} (hu : u < 0x80) (ha : Ascii a) : Ascii (u :: a) :=
  List.forall_mem_cons.mpr ⟨hu, ha⟩

theorem Ascii.sublist {a b : JSString} (hb : Ascii b) (h : a ⊆ b) : Ascii a :=
  fun u mem => hb u (h mem)

theorem zeros_ascii (n : Nat) : Ascii (List.replicate n 48) :=
  fun u mem => by rw [List.eq_of_mem_replicate mem]; decide

theorem numeral_ascii {ds : JSString} (h : Ascii ds) (e : Int) : Ascii (numeral ds e) := by
  have take (n : Nat) : Ascii (ds.take n) := h.sublist (List.take_subset n ds)
  have drop (n : Nat) : Ascii (ds.drop n) := h.sublist (List.drop_subset n ds)
  have dot : unit '.' < 0x80 := by decide
  have power (n : Int) (sign : UInt16) (hs : sign < 0x80) :
      Ascii (unit 'e' :: sign :: natText n.natAbs) :=
    .cons (by decide) (.cons hs (natText_ascii _))
  unfold numeral
  dsimp only
  split
  · exact h.append (zeros_ascii _)
  · split
    · exact (take _).append (.cons dot (drop _))
    · split
      · exact .cons (by decide) (.cons dot ((zeros_ascii _).append h))
      · apply (take 1).append
        have tail := power (ds.length + e - 1)
          (if (ds.length : Int) + e - 1 < 0 then unit '-' else unit '+') (by split <;> decide)
        split
        · exact tail
        · exact .cons dot ((drop 1).append tail)

theorem Decimal.text_ascii (d : Decimal) : Ascii d.text := by
  unfold Decimal.text
  split
  · exact .cons (by decide) fun _ mem => nomatch mem
  · apply Ascii.append
    · split
      · exact .cons (by decide) fun _ mem => nomatch mem
      · exact fun _ mem => nomatch mem
    · exact numeral_ascii (natText_ascii _) _

/-! ## Arrays and objects -/

theorem byteLength_items (items : List Json) :
    byteLength (itemsText [unit ','] items ++ [unit ']']) =
      (items.map fun x => byteLength x.text + 1).sum + 1 := by
  induction items with
  | nil => decide
  | cons x items ih =>
    have shape : itemsText [unit ','] (x :: items) ++ [unit ']'] =
        unit ',' :: (x.text ++ (itemsText [unit ','] items ++ [unit ']'])) := by
      simp [itemsText]
    have comma : unitBytes (unit ',') = 1 := by decide
    rw [shape, byteLength_cons (by decide), byteLength_append, ih, comma, List.map_cons,
      List.sum_cons]
    · omega
    · cases items <;>
      · rintro v ⟨⟩
        decide

/-- An element takes its text and a comma or bracket. -/
theorem byteLength_arr {items : List Json} (some_ : items ≠ []) :
    byteLength (Json.arr items).text = (items.map fun x => byteLength x.text + 1).sum + 1 := by
  cases items with
  | nil => exact absurd rfl some_
  | cons x items =>
    have shape : (Json.arr (x :: items)).text =
        unit '[' :: (x.text ++ (itemsText [unit ','] items ++ [unit ']'])) := by
      simp [Json.text, itemsText]
    have bracket : unitBytes (unit '[') = 1 := by decide
    rw [shape, byteLength_cons (by decide), byteLength_append, byteLength_items, bracket,
      List.map_cons, List.sum_cons]
    · omega
    · cases items <;>
      · rintro v ⟨⟩
        decide

theorem propsText_append (sep : JSString) {props : List (JSString × Json)} (some_ : props ≠ [])
    (more : List (JSString × Json)) :
    propsText sep (props ++ more) = propsText sep props ++ propsText [unit ','] more := by
  induction props generalizing sep with
  | nil => exact absurd rfl some_
  | cons p props ih =>
    cases props with
    | nil => simp [propsText]
    | cons q props =>
      obtain ⟨k, x⟩ := p
      have rest := ih [unit ','] (List.cons_ne_nil q props)
      show sep ++ quote k ++ unit ':' :: x.text ++ propsText [unit ','] (q :: props ++ more) =
        sep ++ quote k ++ unit ':' :: x.text ++ propsText [unit ','] (q :: props) ++ _
      simp only [rest, List.append_assoc]

/-- A member more makes an object longer. -/
theorem byteLength_obj_append {props : List (JSString × Json)} (some_ : props ≠ [])
    (k : JSString) (x : Json) :
    byteLength (Json.obj props).text ≤ byteLength (Json.obj (props ++ [(k, x)])).text := by
  have short : (Json.obj props).text = unit '{' :: (propsText [] props ++ [unit '}']) := rfl
  have long : (Json.obj (props ++ [(k, x)])).text = unit '{' :: (propsText [] props ++
      (propsText [unit ','] [(k, x)] ++ [unit '}'])) := by
    rw [Json.text, propsText_append [] some_, List.append_assoc]
  have brace : byteLength [unit '}'] = 1 := by decide
  have comma : unitBytes (unit ',') = 1 := by decide
  have closes : ∀ v ∈ [unit '}'].head?, isLow v = false := by
    rintro v ⟨⟩
    decide
  rw [short, long, byteLength_cons (by decide), byteLength_cons (by decide),
    byteLength_append _ closes, byteLength_append, brace, propsText]
  · simp only [List.cons_append, List.append_assoc, List.nil_append]
    rw [byteLength_cons (by decide), comma]
    omega
  · rw [propsText]
    rintro v ⟨⟩
    decide

end LemonModel.Text
