import LemonModel.Text.Decimal

/-!
# JSON documents and their text

* `Json`: what `JSON.parse` builds. An object lists its own properties in the
  order they were created; moving integer-like keys to the front, as ECMAScript
  does, changes nothing up to deep equality and is left out;
* `Json.text`: what `JSON.stringify` writes for a document;
* `Json.Wf`: no object repeats a key.
-/

namespace LemonModel.Text

inductive Json where
  | null
  | bool (b : Bool)
  | num (n : Decimal)
  | str (s : JSString)
  | arr (items : List Json)
  | obj (props : List (JSString × Json))
  deriving Inhabited

/-- Induction over documents: an array or object after its members. -/
@[elab_as_elim, induction_eliminator]
theorem Json.induction {P : Json → Prop} (null : P .null) (bool : ∀ b, P (.bool b))
    (num : ∀ n, P (.num n)) (str : ∀ s, P (.str s))
    (arr : ∀ items, (∀ x ∈ items, P x) → P (.arr items))
    (obj : ∀ props, (∀ p ∈ props, P p.2) → P (.obj props)) (j : Json) : P j := by
  refine @Json.rec P (fun items => ∀ x ∈ items, P x) (fun props => ∀ p ∈ props, P p.2)
    (fun p => P p.2) null bool num str arr obj ?_ ?_ ?_ ?_ ?_ j
  · simp
  · intro x xs hx hxs; simpa using ⟨hx, hxs⟩
  · simp
  · intro p ps hp hps; simpa using ⟨hp, fun a b hab => hps (a, b) hab⟩
  · intro k x hx; exact hx

/-! ## Equality -/

mutual

def Json.beq : Json → Json → Bool
  | .null, .null => true
  | .bool a, .bool b => a == b
  | .num a, .num b => a == b
  | .str a, .str b => a == b
  | .arr a, .arr b => beqItems a b
  | .obj a, .obj b => beqProps a b
  | _, _ => false

def beqItems : List Json → List Json → Bool
  | [], [] => true
  | x :: xs, y :: ys => x.beq y && beqItems xs ys
  | _, _ => false

def beqProps : List (JSString × Json) → List (JSString × Json) → Bool
  | [], [] => true
  | (k, x) :: xs, (l, y) :: ys => k == l && x.beq y && beqProps xs ys
  | _, _ => false

end

theorem Json.beq_iff (a b : Json) : a.beq b = true ↔ a = b := by
  induction a generalizing b with
  | null => cases b <;> simp [Json.beq]
  | bool x => cases b <;> simp [Json.beq]
  | num x => cases b <;> simp [Json.beq]
  | str x => cases b <;> simp [Json.beq]
  | arr xs ih =>
    cases b with
    | arr ys =>
      have key : ∀ ys, beqItems xs ys = true ↔ xs = ys := by
        induction xs with
        | nil => intro ys; cases ys <;> simp [beqItems]
        | cons x xs ihx =>
          intro ys
          cases ys with
          | nil => simp [beqItems]
          | cons y ys =>
            simp [beqItems, ih x (by simp), ihx fun z hz => ih z (List.mem_cons_of_mem _ hz)]
      simp [Json.beq, key]
    | _ => simp [Json.beq]
  | obj xs ih =>
    cases b with
    | obj ys =>
      have key : ∀ ys, beqProps xs ys = true ↔ xs = ys := by
        induction xs with
        | nil => intro ys; cases ys <;> simp [beqProps]
        | cons x xs ihx =>
          intro ys
          cases ys with
          | nil => simp [beqProps]
          | cons y ys =>
            have hx := ih x (by simp) y.2
            obtain ⟨k, x⟩ := x
            obtain ⟨l, y⟩ := y
            simp only at hx
            simp [beqProps, hx, ihx fun z hz => ih z (List.mem_cons_of_mem _ hz)]
      simp [Json.beq, key]
    | _ => simp [Json.beq]

instance : DecidableEq Json := fun a b => decidable_of_iff _ (Json.beq_iff a b)

/-! ## Well-formed documents -/

mutual

def Json.Wf : Json → Prop
  | .arr items => WfItems items
  | .obj props => (props.map Prod.fst).Nodup ∧ WfProps props
  | _ => True

def WfItems : List Json → Prop
  | [] => True
  | x :: xs => x.Wf ∧ WfItems xs

def WfProps : List (JSString × Json) → Prop
  | [] => True
  | (_, x) :: xs => x.Wf ∧ WfProps xs

end

theorem Json.wf_arr {items : List Json} : (Json.arr items).Wf ↔ ∀ x ∈ items, x.Wf := by
  rw [Json.Wf]
  induction items with
  | nil => simp [WfItems]
  | cons x xs ih => simp [WfItems, ih]

theorem Json.wf_obj {props : List (JSString × Json)} :
    (Json.obj props).Wf ↔ (props.map Prod.fst).Nodup ∧ ∀ p ∈ props, p.2.Wf := by
  have key : ∀ ps, WfProps ps ↔ ∀ p ∈ ps, p.2.Wf := by
    intro ps
    induction ps with
    | nil => simp [WfProps]
    | cons p ps ih =>
      obtain ⟨k, x⟩ := p
      simp [WfProps, ih]
  rw [Json.Wf, key]

@[simp] theorem Json.wf_str (s : JSString) : (Json.str s).Wf := by simp [Json.Wf]

@[simp] theorem Json.wf_bool (b : Bool) : (Json.bool b).Wf := by simp [Json.Wf]

@[simp] theorem Json.wf_num (n : Decimal) : (Json.num n).Wf := by simp [Json.Wf]

@[simp] theorem Json.wf_null : Json.null.Wf := by simp [Json.Wf]

/-! ## Strings -/

/-- The lowercase digit of value `n < 36`. -/
def digitUnit (n : Nat) : UInt16 := if n < 10 then UInt16.ofNat (48 + n) else UInt16.ofNat (87 + n)

/-- `\uXXXX`. -/
def unicodeEscape (u : UInt16) : JSString :=
  [unit '\\', unit 'u', digitUnit (u.toNat / 4096), digitUnit (u.toNat / 256 % 16),
    digitUnit (u.toNat / 16 % 16), digitUnit (u.toNat % 16)]

/-- How `JSON.stringify` writes a unit that is no half of a pair. -/
def quoteUnit (u : UInt16) : JSString :=
  if u = unit '"' then [unit '\\', unit '"']
  else if u = unit '\\' then [unit '\\', unit '\\']
  else if u = 8 then [unit '\\', unit 'b']
  else if u = 12 then [unit '\\', unit 'f']
  else if u = 10 then [unit '\\', unit 'n']
  else if u = 13 then [unit '\\', unit 'r']
  else if u = 9 then [unit '\\', unit 't']
  else if u < 32 || isHigh u || isLow u then unicodeEscape u
  else [u]

/-- The inside of a string literal. -/
def quoteUnits : JSString → JSString
  | [] => []
  | [u] => quoteUnit u
  | u :: v :: rest =>
    if isHigh u && isLow v then u :: v :: quoteUnits rest else quoteUnit u ++ quoteUnits (v :: rest)

/-- A string literal. -/
def quote (s : JSString) : JSString := unit '"' :: (quoteUnits s ++ [unit '"'])

/-! ## Documents -/

mutual

def Json.text : Json → JSString
  | .null => lit "null"
  | .bool b => if b then lit "true" else lit "false"
  | .num n => n.text
  | .str s => quote s
  | .arr items => unit '[' :: (itemsText [] items ++ [unit ']'])
  | .obj props => unit '{' :: (propsText [] props ++ [unit '}'])

/-- Array elements, the first after `sep`, the others after commas. -/
def itemsText (sep : JSString) : List Json → JSString
  | [] => []
  | x :: xs => sep ++ x.text ++ itemsText [unit ','] xs

def propsText (sep : JSString) : List (JSString × Json) → JSString
  | [] => []
  | (k, x) :: xs => sep ++ quote k ++ unit ':' :: x.text ++ propsText [unit ','] xs

end

/-! ## Reading a document -/

/-- An own property of an object. -/
def Json.prop? (j : Json) (k : JSString) : Option Json :=
  match j with
  | .obj props => props.lookup k
  | _ => none

/-- `props[k] = v`: in place when the key exists, at the end otherwise. -/
def setProp (props : List (JSString × Json)) (k : JSString) (v : Json) : List (JSString × Json) :=
  if k ∈ props.map Prod.fst then props.map fun p => if p.1 = k then (k, v) else p
  else props ++ [(k, v)]

theorem setProp_fresh {props : List (JSString × Json)} {k : JSString} (v : Json)
    (h : k ∉ props.map Prod.fst) : setProp props k v = props ++ [(k, v)] := if_neg h

theorem setProp_nodup {props : List (JSString × Json)} (k : JSString) (v : Json)
    (h : (props.map Prod.fst).Nodup) : ((setProp props k v).map Prod.fst).Nodup := by
  unfold setProp
  split
  · have : (props.map fun p => if p.1 = k then (k, v) else p).map Prod.fst = props.map Prod.fst := by
      rw [List.map_map]
      apply List.map_congr_left
      intro p _
      by_cases hp : p.1 = k <;> simp [hp]
    rwa [this]
  · rename_i hk
    rw [List.map_append, List.map_singleton]
    exact List.nodup_append.mpr ⟨h, by simp, by
      rintro a ha b hb rfl
      exact hk (by rw [List.mem_singleton] at hb; rwa [hb] at ha)⟩

theorem mem_setProp {props : List (JSString × Json)} {k : JSString} {v : Json}
    {p : JSString × Json} (h : p ∈ setProp props k v) : p ∈ props ∨ p = (k, v) := by
  unfold setProp at h
  split at h
  · obtain ⟨q, hq, rfl⟩ := List.mem_map.mp h
    by_cases hqk : q.1 = k
    · exact .inr (if_pos hqk)
    · rw [if_neg hqk]; exact .inl hq
  · simpa using h

/-- What an object without own properties still has. -/
def objectPrototype : List JSString :=
  [lit "constructor", lit "__defineGetter__", lit "__defineSetter__", lit "hasOwnProperty",
    lit "__lookupGetter__", lit "__lookupSetter__", lit "isPrototypeOf",
    lit "propertyIsEnumerable", lit "toString", lit "valueOf", lit "__proto__",
    lit "toLocaleString"]

/-- `Number.isInteger(x) && x >= 0`, with the number as a natural. -/
def Json.nat? : Json → Option Nat
  | .num n => if 0 ≤ n.mant ∧ 0 ≤ n.exp then some (n.mant.toNat * 10 ^ n.exp.toNat) else none
  | _ => none

/-- The number `n` as a document. -/
def Json.ofNat (n : Nat) : Json := .num (.ofNat n)

@[simp] theorem Json.wf_ofNat (n : Nat) : (Json.ofNat n).Wf := by simp [Json.ofNat]

theorem dropZeros_value (fuel m : Nat) (e : Int) (he : 0 ≤ e) :
    0 ≤ (dropZeros fuel m e).2 ∧
      (dropZeros fuel m e).1 * 10 ^ (dropZeros fuel m e).2.toNat = m * 10 ^ e.toNat := by
  induction fuel generalizing m e with
  | zero => exact ⟨he, rfl⟩
  | succ fuel ih =>
    unfold dropZeros
    split
    · rename_i hm
      obtain ⟨h0, hv⟩ := ih (m / 10) (e + 1) (by omega)
      refine ⟨h0, ?_⟩
      have hs : (e + 1).toNat = e.toNat + 1 := by omega
      rw [hv, hs, pow_succ, mul_comm (10 ^ e.toNat), ← mul_assoc,
        Nat.div_mul_cancel (Nat.dvd_of_mod_eq_zero hm)]
    · exact ⟨he, rfl⟩

@[simp] theorem Json.nat?_ofNat (n : Nat) : (Json.ofNat n).nat? = some n := by
  unfold Json.ofNat Decimal.ofNat Json.nat? Decimal.scaled
  by_cases h : n = 0
  · simp [h]
  · obtain ⟨h0, hv⟩ := dropZeros_value n n 0 (Int.le_refl 0)
    simp only [h, ↓reduceDIte, Bool.false_eq_true, ↓reduceIte, Int.natCast_nonneg, h0, and_self,
      Int.toNat_natCast, hv]
    simp

theorem Decimal.value_ofNat (n : Nat) : (Decimal.ofNat n).value = n := by
  have whole := Json.nat?_ofNat n
  unfold Json.ofNat Json.nat? at whole
  dsimp only at whole
  split at whole
  · rename_i signs
    obtain ⟨mant, exp⟩ := signs
    have eq := congrArg (Nat.cast (R := ℚ)) (Option.some.inj whole)
    rw [Nat.cast_mul, Nat.cast_pow] at eq
    rw [Decimal.value, ← eq]
    have mantissa : (((Decimal.ofNat n).mant.toNat : ℕ) : ℚ) = ((Decimal.ofNat n).mant : ℚ) := by
      exact_mod_cast congrArg (Int.cast (R := ℚ)) (Int.toNat_of_nonneg mant)
    have power : (10 : ℚ) ^ (Decimal.ofNat n).exp = 10 ^ (Decimal.ofNat n).exp.toNat := by
      conv_lhs => rw [← Int.toNat_of_nonneg exp]
      rw [zpow_natCast]
    rw [mantissa, power]
    norm_num
  · cases whole

end LemonModel.Text
