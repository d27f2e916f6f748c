import LemonModel.Text.Json

/-!
# Reading JSON text

`parse` follows the JSON grammar, `none` standing for a thrown `SyntaxError`.

* `parse_text`: what `JSON.stringify` wrote for a well-formed document reads
  back as that document;
* `parse_wf`: what is read repeats no key in an object.
-/

namespace LemonModel.Text

/-- JSON white space. -/
def isWs (u : UInt16) : Bool := u == 32 || u == 9 || u == 10 || u == 13

def skipWs (s : JSString) : JSString := s.dropWhile isWs

/-- The text after white space and the unit `c`. -/
def expect (c : UInt16) (s : JSString) : Option JSString :=
  match skipWs s with
  | [] => none
  | u :: rest => if u = c then some rest else none

/-- The text after the literal `w`. -/
def afterWord (w s : JSString) : Option JSString :=
  if w.isPrefixOf s then some (s.drop w.length) else none

/-- The value of a hexadecimal digit. -/
def hexValue (u : UInt16) : Option Nat :=
  if isDigit u then some (u.toNat - 48)
  else if 97 ≤ u && u ≤ 102 then some (u.toNat - 87)
  else if 65 ≤ u && u ≤ 70 then some (u.toNat - 55)
  else none

/-- The unit a one-letter escape stands for. -/
def shortEscape (u : UInt16) : Option UInt16 :=
  if u = unit '"' then some u
  else if u = unit '\\' then some u
  else if u = unit '/' then some u
  else if u = unit 'b' then some 8
  else if u = unit 'f' then some 12
  else if u = unit 'n' then some 10
  else if u = unit 'r' then some 13
  else if u = unit 't' then some 9
  else none

/-- The rest of a string literal after its opening quote. -/
def parseChars : JSString → Option (JSString × JSString)
  | [] => none
  | u :: rest =>
    if u = unit '"' then some ([], rest)
    else if u = unit '\\' then
      match rest with
      | [] => none
      | e :: rest =>
        if e = unit 'u' then
          match rest with
          | a :: b :: c :: d :: rest => do
            let a ← hexValue a
            let b ← hexValue b
            let c ← hexValue c
            let d ← hexValue d
            let (s, rest) ← parseChars rest
            some (UInt16.ofNat (4096 * a + 256 * b + 16 * c + d) :: s, rest)
          | _ => none
        else do
          let v ← shortEscape e
          let (s, rest) ← parseChars rest
          some (v :: s, rest)
    else if u < 32 then none
    else do
      let (s, rest) ← parseChars rest
      some (u :: s, rest)

mutual

/-- One value and the text after it; `fuel` bounds the calls below. -/
def parseValue : Nat → JSString → Option (Json × JSString)
  | 0, _ => none
  | fuel + 1, s =>
    match skipWs s with
    | [] => none
    | u :: rest =>
      if u = unit '"' then do
        let (k, rest) ← parseChars rest
        some (.str k, rest)
      else if u = unit '[' then
        match expect (unit ']') rest with
        | some rest => some (.arr [], rest)
        | none => do
          let (items, rest) ← parseItems fuel rest
          some (.arr items, rest)
      else if u = unit '{' then
        match expect (unit '}') rest with
        | some rest => some (.obj [], rest)
        | none => do
          let (props, rest) ← parseProps fuel [] rest
          some (.obj props, rest)
      else if u = unit 'n' then (afterWord (lit "null") (u :: rest)).map fun r => (.null, r)
      else if u = unit 't' then (afterWord (lit "true") (u :: rest)).map fun r => (.bool true, r)
      else if u = unit 'f' then (afterWord (lit "false") (u :: rest)).map fun r => (.bool false, r)
      else do
        let (n, rest) ← scanNumber (u :: rest)
        some (.num n, rest)

/-- Array elements up to and including the closing bracket. -/
def parseItems : Nat → JSString → Option (List Json × JSString)
  | 0, _ => none
  | fuel + 1, s => do
    let (x, s) ← parseValue fuel s
    match expect (unit ',') s with
    | some s => do
      let (xs, s) ← parseItems fuel s
      some (x :: xs, s)
    | none => do
      let s ← expect (unit ']') s
      some ([x], s)

/-- Object members up to and including the closing brace; a repeated key keeps
its first place and its last value. -/
def parseProps : Nat → List (JSString × Json) → JSString → Option (List (JSString × Json) × JSString)
  | 0, _, _ => none
  | fuel + 1, props, s => do
    let s ← expect (unit '"') s
    let (k, s) ← parseChars s
    let s ← expect (unit ':') s
    let (x, s) ← parseValue fuel s
    match expect (unit ',') s with
    | some s => parseProps fuel (setProp props k x) s
    | none => do
      let s ← expect (unit '}') s
      some (setProp props k x, s)

end

/-- `JSON.parse`. -/
def parse (s : JSString) : Option Json :=
  match parseValue (s.length + 1) s with
  | some (j, rest) => if skipWs rest = [] then some j else none
  | none => none

/-! ## Strings round trip -/

theorem hexValue_digitUnit {n : Nat} (h : n < 16) : hexValue (digitUnit n) = some n := by
  revert n
  decide

@[simp] theorem parseChars_end (rest : JSString) :
    parseChars (unit '"' :: rest) = some ([], rest) := by
  rw [parseChars.eq_def]
  simp

theorem parseChars_plain {u : UInt16} {s rest r : JSString} (hq : u ≠ unit '"')
    (hb : u ≠ unit '\\') (hc : ¬ u < 32) (h : parseChars s = some (r, rest)) :
    parseChars (u :: s) = some (u :: r, rest) := by
  rw [parseChars.eq_def]
  simp [hq, hb, hc, h]

theorem parseChars_short {e v : UInt16} {s rest r : JSString} (he : shortEscape e = some v)
    (hu : e ≠ unit 'u') (h : parseChars s = some (r, rest)) :
    parseChars (unit '\\' :: e :: s) = some (v :: r, rest) := by
  have hbq : unit '\\' ≠ unit '"' := by decide
  rw [parseChars.eq_def]
  simp [hbq, hu, he, h]

theorem parseChars_unicode (u : UInt16) {s rest r : JSString} (h : parseChars s = some (r, rest)) :
    parseChars (unicodeEscape u ++ s) = some (u :: r, rest) := by
  have hbq : unit '\\' ≠ unit '"' := by decide
  have hu : u.toNat < 65536 := u.toNat_lt
  have hv : 4096 * (u.toNat / 4096) + 256 * (u.toNat / 256 % 16) + 16 * (u.toNat / 16 % 16) +
      u.toNat % 16 = u.toNat := by omega
  have hn := congrArg UInt16.ofNat hv
  rw [UInt16.ofNat_toNat] at hn
  rw [unicodeEscape, parseChars.eq_def]
  simpa [hbq, h, hexValue_digitUnit (show u.toNat / 4096 < 16 by omega),
    hexValue_digitUnit (show u.toNat / 256 % 16 < 16 by omega),
    hexValue_digitUnit (show u.toNat / 16 % 16 < 16 by omega),
    hexValue_digitUnit (show u.toNat % 16 < 16 by omega)] using hn

theorem parseChars_quoteUnit (u : UInt16) {s rest r : JSString}
    (h : parseChars s = some (r, rest)) :
    parseChars (quoteUnit u ++ s) = some (u :: r, rest) := by
  unfold quoteUnit
  split
  · subst u
    exact parseChars_short (by decide) (by decide) h
  split
  · subst u
    exact parseChars_short (by decide) (by decide) h
  split
  · subst u
    exact parseChars_short (by decide) (by decide) h
  split
  · subst u
    exact parseChars_short (by decide) (by decide) h
  split
  · subst u
    exact parseChars_short (by decide) (by decide) h
  split
  · subst u
    exact parseChars_short (by decide) (by decide) h
  split
  · subst u
    exact parseChars_short (by decide) (by decide) h
  split
  · exact parseChars_unicode u h
  · rename_i hq hb _ _ _ _ _ hc
    simp only [Bool.or_eq_true, decide_eq_true_eq, not_or] at hc
    exact parseChars_plain hq hb hc.1.1 h

theorem surrogate_plain {u : UInt16} (h : isHigh u = true ∨ isLow u = true) :
    u ≠ unit '"' ∧ u ≠ unit '\\' ∧ ¬ u < 32 := by
  have hge : 0xD800 ≤ u := by
    rcases h with h | h
    · simp only [isHigh, Bool.and_eq_true, decide_eq_true_eq] at h
      exact h.1
    · simp only [isLow, Bool.and_eq_true, decide_eq_true_eq] at h
      exact UInt16.le_trans (by decide) h.1
  refine ⟨?_, ?_, ?_⟩
  · rintro rfl; exact absurd hge (by decide)
  · rintro rfl; exact absurd hge (by decide)
  · intro hlt; exact absurd (UInt16.lt_of_le_of_lt hge hlt) (by decide)

/-- A quoted string reads back, up to its closing quote. -/
theorem parseChars_quote (s rest : JSString) :
    parseChars (quoteUnits s ++ unit '"' :: rest) = some (s, rest) := by
  induction s using quoteUnits.induct with
  | case1 => exact parseChars_end rest
  | case2 u => exact parseChars_quoteUnit u (parseChars_end rest)
  | case3 u v r h ih =>
    have hp : isHigh u = true ∧ isLow v = true := by simpa using h
    obtain ⟨uq, ub, uc⟩ := surrogate_plain (.inl hp.1)
    obtain ⟨vq, vb, vc⟩ := surrogate_plain (.inr hp.2)
    rw [quoteUnits, if_pos h]
    exact parseChars_plain uq ub uc (parseChars_plain vq vb vc ih)
  | case4 u v r h ih =>
    rw [quoteUnits, if_neg h, List.append_assoc]
    exact parseChars_quoteUnit u ih

/-! ## Documents round trip -/

theorem skipWs_cons {u : UInt16} {s : JSString} (h : isWs u = false) : skipWs (u :: s) = u :: s := by
  simp [skipWs, h]

theorem expect_cons {c : UInt16} (s : JSString) (h : isWs c = false) :
    expect c (c :: s) = some s := by
  simp [expect, skipWs_cons h]

theorem expect_other {c u : UInt16} (s : JSString) (h : isWs u = false) (hc : u ≠ c) :
    expect c (u :: s) = none := by
  simp [expect, skipWs_cons h, hc]

theorem afterWord_append (w s : JSString) : afterWord w (w ++ s) = some s := by
  simp [afterWord]

/-- A numeral starts with a digit or a minus sign. -/
theorem Decimal.text_head (d : Decimal) :
    ∃ u s, d.text = u :: s ∧ (isDigit u = true ∨ u = unit '-') := by
  unfold Decimal.text
  split
  · exact ⟨48, [], rfl, .inl (by decide)⟩
  · rename_i h0
    split
    · exact ⟨unit '-', _, rfl, .inr rfl⟩
    · obtain ⟨i, _, _, r, _, hi, -⟩ :=
        scan_numeral (Int.natAbs_pos.mpr h0) d.exp (s := []) (by simp [NumberEnds])
      cases hn : numeral (natText d.mant.natAbs) d.exp with
      | nil => rw [hn] at hi; simp [scanInt] at hi
      | cons u s =>
        refine ⟨u, s, rfl, .inl ?_⟩
        rw [hn] at hi
        by_contra hu
        simp [scanInt, hu] at hi

/-- The units a document's text can start with. -/
def Starts (u : UInt16) : Prop :=
  isDigit u = true ∨ u ∈ [unit '-', unit '"', unit '[', unit '{', unit 'n', unit 't', unit 'f']

theorem Starts.plain {u : UInt16} (h : Starts u) : isWs u = false ∧ u ≠ unit ']' ∧ u ≠ unit '}' := by
  rcases h with h | h
  · simp only [isDigit, Bool.and_eq_true, decide_eq_true_eq] at h
    refine ⟨?_, ?_, ?_⟩
    · by_contra hw
      simp only [isWs, Bool.not_eq_false, Bool.or_eq_true, beq_iff_eq] at hw
      rcases hw with ((rfl | rfl) | rfl) | rfl <;> exact absurd h.1 (by decide)
    · rintro rfl; exact absurd h.2 (by decide)
    · rintro rfl; exact absurd h.2 (by decide)
  · fin_cases h <;> decide

theorem Json.text_head (j : Json) : ∃ u s, j.text = u :: s ∧ Starts u := by
  cases j with
  | null => exact ⟨_, _, rfl, .inr (by decide)⟩
  | bool b => cases b <;> exact ⟨_, _, rfl, .inr (by decide)⟩
  | num n =>
    obtain ⟨u, s, h, hu⟩ := n.text_head
    refine ⟨u, s, by rw [Json.text, h], ?_⟩
    rcases hu with hu | rfl
    · exact .inl hu
    · exact .inr (by decide)
  | str s => exact ⟨_, _, rfl, .inr (by decide)⟩
  | arr items => exact ⟨_, _, by rw [Json.text], .inr (by decide)⟩
  | obj props => exact ⟨_, _, by rw [Json.text], .inr (by decide)⟩

theorem skipWs_text (j : Json) (s : JSString) : skipWs (j.text ++ s) = j.text ++ s := by
  obtain ⟨u, t, h, hu⟩ := j.text_head
  rw [h]
  exact skipWs_cons hu.plain.1

theorem numberEnds_cons {u : UInt16} (s : JSString)
    (h : isDigit u = false ∧ u ≠ unit '.' ∧ u ≠ unit 'e' ∧ u ≠ unit 'E') :
    NumberEnds (u :: s) := by
  intro v hv
  obtain rfl : u = v := by simpa using hv
  exact h

/-- What `parseValue` must do on the text of `j`, with enough fuel. -/
def Reads (j : Json) : Prop :=
  ∀ fuel rest, j.text.length ≤ fuel → NumberEnds rest →
    parseValue fuel (j.text ++ rest) = some (j, rest)

theorem parseItems_text {items : List Json} (hr : ∀ x ∈ items, Reads x) (x : Json) (hx : Reads x)
    (fuel : Nat) (rest : JSString)
    (hf : (x.text ++ itemsText [unit ','] items).length < fuel) :
    parseItems fuel (x.text ++ (itemsText [unit ','] items ++ unit ']' :: rest)) =
      some (x :: items, rest) := by
  induction items generalizing x fuel with
  | nil =>
    obtain ⟨fuel, rfl⟩ : ∃ f, fuel = f + 1 := ⟨fuel - 1, by omega⟩
    simp only [itemsText, List.append_nil] at hf
    have hv := hx fuel (unit ']' :: rest) (by omega) (numberEnds_cons _ (by decide))
    simp only [parseItems, itemsText, List.nil_append, hv, Option.bind_eq_bind, Option.bind_some,
      expect_other rest (show isWs (unit ']') = false by decide)
        (show unit ']' ≠ unit ',' by decide),
      expect_cons rest (show isWs (unit ']') = false by decide)]
  | cons y ys ih =>
    obtain ⟨fuel, rfl⟩ : ∃ f, fuel = f + 1 := ⟨fuel - 1, by omega⟩
    simp only [itemsText, List.length_append, List.length_singleton] at hf
    have hv := hx fuel (unit ',' :: (y.text ++ (itemsText [unit ','] ys ++ unit ']' :: rest)))
      (by omega) (numberEnds_cons _ (by decide))
    have hys := ih (fun z hz => hr z (List.mem_cons_of_mem _ hz)) y (hr y (by simp)) fuel
      (by simp only [List.length_append]; omega)
    simp only [parseItems, itemsText, List.cons_append, List.nil_append, List.append_assoc, hv,
      Option.bind_eq_bind, Option.bind_some,
      expect_cons _ (show isWs (unit ',') = false by decide), hys]

theorem parseProps_text {props : List (JSString × Json)} (hr : ∀ p ∈ props, Reads p.2)
    (k : JSString) (x : Json) (hx : Reads x) (done : List (JSString × Json))
    (hn : ((done ++ (k, x) :: props).map Prod.fst).Nodup) (fuel : Nat) (rest : JSString)
    (hf : (propsText [] ((k, x) :: props)).length < fuel) :
    parseProps fuel done (propsText [] ((k, x) :: props) ++ unit '}' :: rest) =
      some (done ++ (k, x) :: props, rest) := by
  induction props generalizing k x done fuel with
  | nil =>
    obtain ⟨fuel, rfl⟩ : ∃ f, fuel = f + 1 := ⟨fuel - 1, by omega⟩
    simp only [propsText, quote, List.length_append, List.length_cons, List.length_nil] at hf
    have hv := hx fuel (unit '}' :: rest) (by omega) (numberEnds_cons _ (by decide))
    have hk : k ∉ done.map Prod.fst := by
      rw [List.map_append, List.nodup_append] at hn
      exact fun hk => hn.2.2 k hk k (by simp) rfl
    simp only [parseProps, propsText, quote, List.nil_append, List.cons_append, List.append_assoc,
      List.append_nil, expect_cons _ (show isWs (unit '"') = false by decide), parseChars_quote,
      Option.bind_eq_bind, Option.bind_some, expect_cons _ (show isWs (unit ':') = false by decide),
      hv, expect_other rest (show isWs (unit '}') = false by decide)
        (show unit '}' ≠ unit ',' by decide),
      expect_cons _ (show isWs (unit '}') = false by decide), setProp_fresh x hk]
  | cons p ps ih =>
    obtain ⟨l, y⟩ := p
    obtain ⟨fuel, rfl⟩ : ∃ f, fuel = f + 1 := ⟨fuel - 1, by omega⟩
    simp only [propsText, quote, List.length_append, List.length_cons, List.length_nil] at hf
    have hv := hx fuel (unit ',' :: (propsText [] ((l, y) :: ps) ++ unit '}' :: rest))
      (by omega) (numberEnds_cons _ (by decide))
    have hk : k ∉ done.map Prod.fst := by
      rw [List.map_append, List.nodup_append] at hn
      exact fun hk => hn.2.2 k hk k (by simp) rfl
    have hps := ih (fun q hq => hr q (List.mem_cons_of_mem _ hq)) l y (hr (l, y) (by simp))
      (done ++ [(k, x)]) (by simpa using hn) fuel
      (by simp only [propsText, quote, List.length_append, List.length_cons, List.length_nil]; omega)
    simp only [propsText, quote, List.nil_append, List.cons_append, List.append_assoc] at hv hps
    simp only [parseProps, propsText, quote, List.nil_append, List.cons_append, List.append_assoc,
      expect_cons _ (show isWs (unit '"') = false by decide), parseChars_quote,
      Option.bind_eq_bind, Option.bind_some, expect_cons _ (show isWs (unit ':') = false by decide),
      hv, expect_cons _ (show isWs (unit ',') = false by decide), setProp_fresh x hk, hps]

theorem reads (j : Json) (h : j.Wf) : Reads j := by
  induction j with
  | null =>
    intro fuel rest hf _
    obtain ⟨fuel, rfl⟩ : ∃ f, fuel = f + 1 := ⟨fuel - 1, by simp [Json.text, lit] at hf; omega⟩
    rw [parseValue, skipWs_text]
    exact congrArg (Option.map _) (afterWord_append (lit "null") rest)
  | bool b =>
    intro fuel rest hf _
    obtain ⟨fuel, rfl⟩ : ∃ f, fuel = f + 1 :=
      ⟨fuel - 1, by cases b <;> simp [Json.text, lit] at hf <;> omega⟩
    rw [parseValue, skipWs_text]
    cases b
    · exact congrArg (Option.map _) (afterWord_append (lit "false") rest)
    · exact congrArg (Option.map _) (afterWord_append (lit "true") rest)
  | num n =>
    intro fuel rest hf hr
    obtain ⟨u, s, hn, hu⟩ := n.text_head
    rw [Json.text] at hf ⊢
    obtain ⟨fuel, rfl⟩ : ∃ f, fuel = f + 1 := ⟨fuel - 1, by rw [hn] at hf; simp at hf; omega⟩
    have hscan := scanNumber_text n hr
    have hws : isWs u = false := Starts.plain (u := u) (by
      rcases hu with hu | rfl
      · exact .inl hu
      · exact .inr (by decide)) |>.1
    have hne : ∀ c : UInt16, isDigit c = false → c ≠ unit '-' → u ≠ c := by
      rintro c hc hm rfl
      rcases hu with hu | hu
      · rw [hc] at hu; cases hu
      · exact hm hu
    rw [hn, List.cons_append] at hscan ⊢
    rw [parseValue, skipWs_cons hws]
    simp [hne (unit '"') (by decide) (by decide), hne (unit '[') (by decide) (by decide),
      hne (unit '{') (by decide) (by decide), hne (unit 'n') (by decide) (by decide),
      hne (unit 't') (by decide) (by decide), hne (unit 'f') (by decide) (by decide), hscan]
  | str s =>
    intro fuel rest hf _
    obtain ⟨fuel, rfl⟩ : ∃ f, fuel = f + 1 := ⟨fuel - 1, by simp [Json.text, quote] at hf; omega⟩
    rw [parseValue, skipWs_text]
    simp [Json.text, quote, parseChars_quote]
  | arr items ih =>
    intro fuel rest hf _
    rw [Json.wf_arr] at h
    obtain ⟨fuel, rfl⟩ : ∃ f, fuel = f + 1 := ⟨fuel - 1, by simp [Json.text] at hf; omega⟩
    rw [parseValue, skipWs_text, Json.text]
    have hb : unit '[' ≠ unit '"' := by decide
    cases items with
    | nil =>
      simp [hb, itemsText, expect_cons rest (show isWs (unit ']') = false by decide)]
    | cons x xs =>
      obtain ⟨u, t, hx, hu⟩ := x.text_head
      have hend : expect (unit ']') (x.text ++
        (itemsText [unit ','] xs ++ unit ']' :: rest)) = none := by
        rw [hx]
        exact expect_other _ hu.plain.1 hu.plain.2.1
      have hi := parseItems_text (fun y hy => ih y (List.mem_cons_of_mem _ hy)
        (h y (List.mem_cons_of_mem _ hy))) x (ih x (by simp) (h x (by simp))) fuel rest
        (by simp only [Json.text, itemsText, List.nil_append, List.length_cons,
          List.length_append] at hf
            simp only [List.length_append]; omega)
      simp [hb, itemsText, hend, hi]
  | obj props ih =>
    intro fuel rest hf _
    rw [Json.wf_obj] at h
    obtain ⟨fuel, rfl⟩ : ∃ f, fuel = f + 1 := ⟨fuel - 1, by simp [Json.text] at hf; omega⟩
    rw [parseValue, skipWs_text, Json.text]
    have hb : unit '{' ≠ unit '"' := by decide
    have hb' : unit '{' ≠ unit '[' := by decide
    cases props with
    | nil =>
      simp [hb, hb', propsText, expect_cons rest (show isWs (unit '}') = false by decide)]
    | cons p ps =>
      obtain ⟨k, x⟩ := p
      have hend : expect (unit '}') (propsText [] ((k, x) :: ps) ++ unit '}' :: rest) = none :=
        expect_other _ (by decide) (by decide)
      have hp := parseProps_text (fun q hq => ih q (List.mem_cons_of_mem _ hq)
        (h.2 q (List.mem_cons_of_mem _ hq))) k x (ih (k, x) (by simp) (h.2 (k, x) (by simp))) []
        (by simpa using h.1) fuel rest
        (by simp only [Json.text, List.length_cons, List.length_append] at hf; omega)
      simp [hb, hb', hend, hp]

/-- **What was stringified parses back.** -/
theorem parse_text (j : Json) (h : j.Wf) : parse j.text = some j := by
  have := reads j h (j.text.length + 1) [] (by omega) (by simp [NumberEnds])
  rw [List.append_nil] at this
  simp [parse, this, skipWs]

/-! ## Parsed documents are well formed -/

theorem parse_wf_aux (fuel : Nat) :
    (∀ s j r, parseValue fuel s = some (j, r) → j.Wf) ∧
    (∀ s l r, parseItems fuel s = some (l, r) → ∀ x ∈ l, x.Wf) ∧
    (∀ p s l r, parseProps fuel p s = some (l, r) → (Json.obj p).Wf → (Json.obj l).Wf) := by
  induction fuel with
  | zero => simp [parseValue, parseItems, parseProps]
  | succ fuel ih =>
    obtain ⟨ihv, ihi, ihp⟩ := ih
    have set_wf : ∀ p k x, (Json.obj p).Wf → x.Wf → (Json.obj (setProp p k x)).Wf := by
      intro p k x hp hx
      rw [Json.wf_obj] at hp ⊢
      refine ⟨setProp_nodup k x hp.1, fun q hq => ?_⟩
      rcases mem_setProp hq with hq | rfl
      · exact hp.2 q hq
      · exact hx
    refine ⟨?_, ?_, ?_⟩
    · intro s j r h
      unfold parseValue at h
      split at h
      · cases h
      · split at h
        · simp only [Option.bind_eq_bind, Option.bind_eq_some_iff, Option.some.injEq,
            Prod.mk.injEq] at h
          obtain ⟨_, _, rfl, _⟩ := h
          simp [Json.Wf]
        split at h
        · split at h
          · cases h; simp [Json.wf_arr]
          · simp only [Option.bind_eq_bind, Option.bind_eq_some_iff, Option.some.injEq,
              Prod.mk.injEq] at h
            obtain ⟨⟨l, r'⟩, hl, rfl, _⟩ := h
            exact Json.wf_arr.mpr (ihi _ _ _ hl)
        split at h
        · split at h
          · cases h; simp [Json.wf_obj]
          · simp only [Option.bind_eq_bind, Option.bind_eq_some_iff, Option.some.injEq,
              Prod.mk.injEq] at h
            obtain ⟨⟨l, r'⟩, hl, rfl, _⟩ := h
            exact ihp _ _ _ _ hl (by simp [Json.wf_obj])
        split at h
        · obtain ⟨_, _, h⟩ := Option.map_eq_some_iff.mp h
          cases h; simp [Json.Wf]
        split at h
        · obtain ⟨_, _, h⟩ := Option.map_eq_some_iff.mp h
          cases h; simp [Json.Wf]
        split at h
        · obtain ⟨_, _, h⟩ := Option.map_eq_some_iff.mp h
          cases h; simp [Json.Wf]
        · simp only [Option.bind_eq_bind, Option.bind_eq_some_iff, Option.some.injEq,
            Prod.mk.injEq] at h
          obtain ⟨_, _, rfl, _⟩ := h
          simp [Json.Wf]
    · intro s l r h
      simp only [parseItems, Option.bind_eq_bind, Option.bind_eq_some_iff] at h
      obtain ⟨⟨x, s'⟩, hx, h⟩ := h
      have hxw := ihv _ _ _ hx
      split at h
      · simp only [Option.bind_eq_some_iff, Option.some.injEq, Prod.mk.injEq] at h
        obtain ⟨⟨xs, s''⟩, hxs, rfl, _⟩ := h
        intro y hy
        rcases List.mem_cons.mp hy with rfl | hy
        · exact hxw
        · exact ihi _ _ _ hxs y hy
      · simp only [Option.bind_eq_some_iff, Option.some.injEq, Prod.mk.injEq] at h
        obtain ⟨_, _, rfl, _⟩ := h
        simpa using hxw
    · intro p s l r h hp
      simp only [parseProps, Option.bind_eq_bind, Option.bind_eq_some_iff] at h
      obtain ⟨_, _, ⟨k, _⟩, _, _, _, ⟨x, _⟩, hx, h⟩ := h
      have hw := set_wf p k x hp (ihv _ _ _ hx)
      split at h
      · exact ihp _ _ _ _ h hw
      · simp only [Option.bind_eq_some_iff, Option.some.injEq, Prod.mk.injEq] at h
        obtain ⟨_, _, rfl, _⟩ := h
        exact hw

theorem parse_wf {s : JSString} {j : Json} (h : parse s = some j) : j.Wf := by
  unfold parse at h
  split at h
  · rename_i j' rest hv
    split at h
    · cases h
      exact (parse_wf_aux _).1 _ _ _ hv
    · cases h
  · cases h

end LemonModel.Text
