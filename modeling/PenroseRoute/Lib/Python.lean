import Mathlib
import PenroseRoute.Lib.Checks

/-!
# Decoded JSON in Python

Values as a JSON decoder returns them: integers of any size and doubles side by side, and what
subscripts, iteration, hashing, comparison and sums do on them. Numbers of the two kinds compare by
their exact values; a sum with a double is the double next to it, and an integer that no double can
hold raises. Nothing here depends on the repository.
-/

namespace PenroseRoute.Lib.Python

/-- Built-in exceptions. An overflow names the integer that no double can hold. -/
inductive Exception where
  | valueError
  | typeError
  | keyError
  | indexError
  | overflowError (n : Int)
  deriving DecidableEq, Repr

/-! ### Numbers -/

/-- A number of decoded JSON; the booleans count as integers. -/
inductive Number where
  | int (n : Int)
  | float (x : Float)
  deriving DecidableEq

/-- A rational, or one of the infinities. -/
inductive Quantity where
  | negInfinity
  | rational (q : Rat)
  | infinity
  deriving DecidableEq

/-- The order with the infinities at its ends. -/
def Quantity.le : Quantity → Quantity → Bool
  | .negInfinity, _ => true
  | _, .infinity => true
  | .rational p, .rational q => decide (p ≤ q)
  | _, _ => false

/-- Rational quantities are ordered as rationals. -/
@[simp] theorem Quantity.le_rational (p q : Rat) :
    (Quantity.rational p).le (.rational q) = decide (p ≤ q) := rfl

/-- Every quantity is at most itself. -/
theorem Quantity.le_refl (p : Quantity) : p.le p = true := by
  cases p with
  | rational q => exact decide_eq_true Rat.le_refl
  | negInfinity => rfl
  | infinity => rfl

/-- Any two quantities are comparable. -/
theorem Quantity.le_total (p q : Quantity) : p.le q = true ∨ q.le p = true := by
  cases p <;> cases q <;> simp [Quantity.le, Rat.le_total]

/-- The order of quantities is transitive. -/
theorem Quantity.le_trans {p q r : Quantity} (hpq : p.le q = true) (hqr : q.le r = true) :
    p.le r = true := by
  cases p <;> cases q <;> cases r <;>
    simp only [Quantity.le, decide_eq_true_eq, Bool.false_eq_true] at *
  exact Rat.le_trans hpq hqr

open Float.Model in
/-- The value of an unpacked double; a NaN has none. -/
def unpackedValue : UnpackedFloat → Option Quantity
  | .notANumber => none
  | .infinity .negative => some .negInfinity
  | .infinity .positive => some .infinity
  | .zero _ => some (.rational 0)
  | .finite .negative mantissa exponent _ => some (.rational (-(mantissa * 2 ^ exponent)))
  | .finite .positive mantissa exponent _ => some (.rational (mantissa * 2 ^ exponent))

namespace Number

/-- The exact value of a number; a NaN has none. -/
def value : Number → Option Quantity
  | .int n => some (.rational n)
  | .float x => unpackedValue x.toModel.unpack

/-- The value of an integer. -/
@[simp] theorem value_int (n : Int) : (Number.int n).value = some (.rational n) := rfl

/-- The comparison `a <= b`. -/
def le (a b : Number) : Bool :=
  match a.value, b.value with
  | some p, some q => p.le q
  | _, _ => false

/-- The comparison `a == b`. -/
def equals (a b : Number) : Bool :=
  match a.value, b.value with
  | some p, some q => p == q
  | _, _ => false

/-- Numbers are ordered by their values, and NaN by nothing. -/
theorem le_iff {a b : Number} :
    a.le b = true ↔ ∃ p q, a.value = some p ∧ b.value = some q ∧ p.le q = true := by
  unfold le
  cases a.value <;> cases b.value <;> simp

/-- Numbers are equal when they have the same value, which NaN has not. -/
theorem equals_iff {a b : Number} :
    a.equals b = true ↔ ∃ p, a.value = some p ∧ b.value = some p := by
  unfold equals
  cases a.value with
  | none => simp
  | some p =>
    cases b.value with
    | none => simp
    | some q =>
      rw [beq_iff_eq]
      constructor
      · intro h
        exact ⟨p, rfl, congrArg some h.symm⟩
      · rintro ⟨r, hp, hq⟩
        rw [Option.some.inj hp, Option.some.inj hq]

/-- Integers are ordered as such. -/
@[simp] theorem int_le_int (m n : Int) : (Number.int m).le (.int n) = decide (m ≤ n) := by
  simp [le]

/-- Integers are equal as such. -/
@[simp] theorem int_equals_int (m n : Int) : (Number.int m).equals (.int n) = decide (m = n) := by
  simp [equals, beq_eq_decide]

/-- The comparison `a < b`. -/
def lt (a b : Number) : Bool := a.le b && !b.le a

/-- The built-in `max(a, b)`: the second when it is greater. -/
def max (a b : Number) : Number := if a.lt b then b else a

/-- The greater of two numbers is at most what both are. -/
theorem max_le_iff {a b c : Number} {p q : Quantity} (ha : a.value = some p)
    (hb : b.value = some q) : (a.max b).le c = true ↔ a.le c = true ∧ b.le c = true := by
  have hab : a.le b = p.le q := by simp [le, ha, hb]
  have hba : b.le a = q.le p := by simp [le, ha, hb]
  unfold max lt
  rw [hab, hba]
  split
  · next h =>
    rw [Bool.and_eq_true] at h
    constructor
    · intro hbc
      obtain ⟨q', r, hq', hr, hle⟩ := le_iff.mp hbc
      rw [hb, Option.some.injEq] at hq'
      exact ⟨le_iff.mpr ⟨p, r, ha, hr, Quantity.le_trans h.1 (hq' ▸ hle)⟩, hbc⟩
    · exact fun h ↦ h.2
  · next h =>
    have hqp : q.le p = true := by
      rcases Quantity.le_total p q with hle | hle
      · rw [hle, Bool.true_and, Bool.not_eq_true', Bool.not_eq_false] at h
        exact h
      · exact hle
    constructor
    · intro hac
      obtain ⟨p', r, hp', hr, hle⟩ := le_iff.mp hac
      rw [ha, Option.some.injEq] at hp'
      exact ⟨hac, le_iff.mpr ⟨q, r, hb, hr, Quantity.le_trans hqp (hp' ▸ hle)⟩⟩
    · exact fun h ↦ h.1

/-- The double for a number; an integer beyond the doubles raises. -/
def toFloat : Number → Except Exception Float
  | .int n => if (Float.ofInt n).isFinite then .ok (Float.ofInt n) else .error (.overflowError n)
  | .float x => .ok x

/-- Integers are combined as integers, everything else as doubles. -/
def combine (onInts : Int → Int → Int) (onFloats : Float → Float → Float) :
    Number → Number → Except Exception Number
  | .int m, .int n => .ok (.int (onInts m n))
  | a, b => do
    let x ← a.toFloat
    let y ← b.toFloat
    return .float (onFloats x y)

/-- The sum `a + b`. -/
def add : Number → Number → Except Exception Number := combine (· + ·) (· + ·)

/-- The difference `a - b`. -/
def sub : Number → Number → Except Exception Number := combine (· - ·) (· - ·)

/-- The sum of integers is exact. -/
@[simp] theorem int_add_int (m n : Int) : (Number.int m).add (.int n) = .ok (.int (m + n)) := rfl

/-- The difference of integers is exact. -/
@[simp] theorem int_sub_int (m n : Int) : (Number.int m).sub (.int n) = .ok (.int (m - n)) := rfl

end Number

/-! ### Sums are numbers -/

open Float.Model UnpackedFloat in
/-- Packing only a NaN gives a NaN. -/
theorem unpack_pack_ne_nan {u : UnpackedFloat} (h : u ≠ .notANumber) :
    UnpackedFloat.unpack Format.binary64 (UnpackedFloat.pack Format.binary64 u) ≠ .notANumber := by
  have hcomponents : ∀ sign exponent mantissa, (exponent = -1#_ → mantissa = 0#_) →
      UnpackedFloat.unpack Format.binary64 (packComponents Format.binary64 sign exponent mantissa) ≠
        .notANumber := by
    intro sign exponent mantissa hzero
    unfold UnpackedFloat.unpack
    simp only [unpackMantissa_packComponents, unpackExponent_packComponents]
    split
    · next he =>
      rw [if_pos (hzero he)]
      intro hcase
      cases hcase
    · split
      · split <;> (intro hcase; cases hcase)
      · intro hcase
        cases hcase
  cases u with
  | notANumber => exact absurd rfl h
  | infinity s => exact hcomponents _ _ _ fun _ ↦ rfl
  | zero s => exact hcomponents _ _ _ fun _ ↦ rfl
  | finite s m e hm =>
    unfold UnpackedFloat.pack
    dsimp only
    split
    · exact hcomponents _ _ _ fun _ ↦ rfl
    · next hbias =>
      split
      · refine hcomponents _ _ _ fun hones ↦ absurd hones ?_
        intro hones
        have hnat := congrArg BitVec.toNat hones
        have hmax : (-BitVec.ofNat Format.binary64.exponentBits 1).toNat = 2047 := by decide
        rw [BitVec.toNat_ofNat, hmax] at hnat
        change ¬ 2 ^ 11 ≤ _ at hbias
        change _ % 2 ^ 11 = 2047 at hnat
        omega
      · exact hcomponents _ _ _ fun hones ↦ absurd hones (by decide)

open Float.Model UnpackedFloat in
private theorem round_ne_nan (sign : Sign) (mantissa : Nat) (exponent : Int) :
    UnpackedFloat.round Format.binary64 sign mantissa exponent ≠ .notANumber := by
  unfold UnpackedFloat.round roundWithAccuracy
  dsimp only
  split <;> (intro h; cases h)

open Float.Model UnpackedFloat in
private theorem normalize_ne_nan (mantissa exponent : Int) (sign : Sign) :
    UnpackedFloat.normalize Format.binary64 mantissa exponent sign ≠ .notANumber := by
  unfold UnpackedFloat.normalize
  split
  · exact round_ne_nan _ _ _
  · intro h
    cases h
  · exact round_ne_nan _ _ _

open Float.Model UnpackedFloat in
private theorem add_ne_nan {u v : UnpackedFloat} (hu : u ≠ .notANumber) (hv : v.isFinite = true) :
    UnpackedFloat.add Format.binary64 u v ≠ .notANumber := by
  cases v with
  | notANumber => cases hv
  | infinity s => cases hv
  | zero s =>
    cases u with
    | notANumber => exact absurd rfl hu
    | infinity s' => exact UnpackedFloat.noConfusion
    | zero s' => cases s <;> cases s' <;> exact UnpackedFloat.noConfusion
    | finite s' m e hm => exact UnpackedFloat.noConfusion
  | finite s m e hm =>
    cases u with
    | notANumber => exact absurd rfl hu
    | infinity s' => exact UnpackedFloat.noConfusion
    | zero s' => exact UnpackedFloat.noConfusion
    | finite s' m' e' hm' => exact normalize_ne_nan _ _ _

namespace Number

/-- A double that is no NaN has a value. -/
theorem value_float_isSome {x : Float} (h : x.toModel.unpack ≠ .notANumber) :
    ∃ p, (Number.float x).value = some p := by
  unfold value
  dsimp only
  cases hx : x.toModel.unpack with
  | notANumber => exact absurd hx h
  | zero s => exact ⟨_, rfl⟩
  | infinity s => cases s <;> exact ⟨_, rfl⟩
  | finite s m e hm => cases s <;> exact ⟨_, rfl⟩

/-- An integer added to a number that has a value gives one. -/
theorem value_add_int {a sum : Number} {n : Int} {p : Quantity} (ha : a.value = some p)
    (h : a.add (.int n) = .ok sum) : ∃ q, sum.value = some q := by
  cases a with
  | int m =>
    rw [int_add_int] at h
    cases h
    exact ⟨_, rfl⟩
  | float x =>
    have hx : x.toModel.unpack ≠ .notANumber := by
      intro hnan
      rw [value, hnan] at ha
      cases ha
    have hsum : ((Number.int n).toFloat >>= fun y ↦ pure (.float (x + y))) = Except.ok sum := h
    unfold toFloat at hsum
    dsimp only at hsum
    split at hsum
    · next hfinite =>
      cases hsum
      exact value_float_isSome (unpack_pack_ne_nan (add_ne_nan hx hfinite))
    · cases hsum

/-- An integer that no double holds, in a computation with a double. -/
structure Overflows (e : Exception) (a b : Number) : Prop where
  tooLarge : ∃ n, e = .overflowError n ∧ (Float.ofInt n).isFinite = false
  mixed : (∃ x, a = .float x) ∨ ∃ x, b = .float x

/-- Only an integer that no double can hold fails to become one. -/
theorem toFloat_error {a : Number} {e : Exception} (h : a.toFloat = .error e) :
    ∃ n, a = .int n ∧ e = .overflowError n ∧ (Float.ofInt n).isFinite = false := by
  cases a with
  | float x => cases h
  | int n =>
    unfold toFloat at h
    dsimp only at h
    split at h
    · cases h
    · next hfinite =>
      cases h
      exact ⟨n, rfl, rfl, Bool.not_eq_true _ ▸ hfinite⟩

/-- Nothing else makes a computation fail. -/
theorem combine_error {onInts : Int → Int → Int} {onFloats : Float → Float → Float} {a b : Number}
    {e : Exception} (h : combine onInts onFloats a b = .error e) : Overflows e a b := by
  have hfloats : ¬ (∃ m n, a = .int m ∧ b = .int n) →
      a.toFloat = .error e ∨ ∃ x, a.toFloat = .ok x ∧ b.toFloat = .error e := by
    intro hmixed
    have hdo : (a.toFloat >>= fun x ↦ b.toFloat >>= fun y ↦
        pure (Number.float (onFloats x y))) = .error e := by
      rw [← h]
      cases a with
      | float x => rfl
      | int m =>
        cases b with
        | float y => rfl
        | int n => exact absurd ⟨m, n, rfl, rfl⟩ hmixed
    rcases Lib.bind_eq_error.mp hdo with ha | ⟨x, hx, hrest⟩
    · exact .inl ha
    · rcases Lib.bind_eq_error.mp hrest with hb | ⟨y, -, hpure⟩
      · exact .inr ⟨x, hx, hb⟩
      · cases hpure
  cases a with
  | int m =>
    cases b with
    | int n => cases h
    | float y =>
      rcases hfloats (by rintro ⟨_, _, -, hb⟩; cases hb) with hm | ⟨x, -, hy⟩
      · obtain ⟨n, -, he, hn⟩ := toFloat_error hm
        exact ⟨⟨n, he, hn⟩, .inr ⟨y, rfl⟩⟩
      · cases hy
  | float x =>
    rcases hfloats (by rintro ⟨_, _, ha, -⟩; cases ha) with hx | ⟨x', -, hn⟩
    · cases hx
    · obtain ⟨n, -, he, hn⟩ := toFloat_error hn
      exact ⟨⟨n, he, hn⟩, .inl ⟨x, rfl⟩⟩

end Number

/-! ### Values -/

/-- A decoded JSON value. -/
inductive Json where
  | null
  | bool (b : Bool)
  | int (n : Int)
  | float (x : Float)
  | str (s : String)
  | arr (items : List Json)
  | obj (members : List (String × Json))

/-- A value that can stand in a set or be a key of a dictionary. -/
inductive Key where
  | none
  | number (n : Number)
  | text (s : String)

namespace Key

/-- Equal keys; numbers are compared by value. -/
def equals : Key → Key → Bool
  | .none, .none => true
  | .number a, .number b => a.equals b
  | .text s, .text t => s == t
  | _, _ => false

/-- A key equals a text only if it is that text. -/
@[simp] theorem equals_text {k : Key} {s : String} : k.equals (.text s) = true ↔ k = .text s := by
  cases k <;> simp [equals]

/-- A text equals a key only if the key is that text. -/
@[simp] theorem text_equals {k : Key} {s : String} :
    (Key.text s).equals k = true ↔ k = .text s := by
  cases k with
  | text t =>
    rw [equals, beq_iff_eq, text.injEq]
    exact eq_comm
  | _ => simp [equals]

end Key

namespace Json

/-- The subscript `value[key]` with a text. -/
def getItem : Json → String → Except Exception Json
  | .obj members, key =>
    match members.find? (·.1 == key) with
    | some member => .ok member.2
    | none => .error .keyError
  | _, _ => .error .typeError

/-- What `for … in value` runs over: entries of a list, keys of an object, letters of a text. -/
def iter : Json → Except Exception (List Json)
  | .arr items => .ok items
  | .obj members => .ok (members.map fun member ↦ .str member.1)
  | .str s => .ok (s.toList.map fun c ↦ .str c.toString)
  | _ => .error .typeError

/-- `len(value)`. -/
def len : Json → Except Exception Nat
  | .arr items => .ok items.length
  | .obj members => .ok members.length
  | .str s => .ok s.length
  | _ => .error .typeError

/-- The value as a number; comparing or adding anything else raises. -/
def number : Json → Except Exception Number
  | .bool b => .ok (.int b.toInt)
  | .int n => .ok (.int n)
  | .float x => .ok (.float x)
  | _ => .error .typeError

/-- The value as a key; lists and objects have no hash. -/
def hash : Json → Except Exception Key
  | .null => .ok .none
  | .str s => .ok (.text s)
  | .arr _ => .error .typeError
  | .obj _ => .error .typeError
  | .bool b => .ok (.number (.int b.toInt))
  | .int n => .ok (.number (.int n))
  | .float x => .ok (.number (.float x))

/-- The value as a list index; a float is none, whatever its value. -/
def index : Json → Except Exception Int
  | .bool b => .ok b.toInt
  | .int n => .ok n
  | _ => .error .typeError

/-- The comparison `value == n`. -/
def equals (value : Json) (n : Number) : Bool :=
  match value.number with
  | .ok m => m.equals n
  | .error _ => false

/-- Only a string is hashed to a text. -/
theorem hash_eq_text {value : Json} {s : String} (h : value.hash = .ok (.text s)) :
    value = .str s := by
  cases value <;> simp [hash] at h
  rw [h]

end Json

/-- The list subscript `xs[i]`; negative indices count from the end. -/
def listItem {α : Type} (xs : List α) (i : Int) : Except Exception α :=
  match xs[(if 0 ≤ i then i else xs.length + i).toNat]? with
  | some x => if -xs.length ≤ i then .ok x else .error .indexError
  | none => .error .indexError

/-! ### Values without doubles -/

/-- A value inside another one, at any depth. -/
inductive Json.Part (part : Json) : Json → Prop where
  | self : Json.Part part part
  | item {x : Json} {items : List Json} : x ∈ items → Json.Part part x →
      Json.Part part (.arr items)
  | member {m : String × Json} {members : List (String × Json)} : m ∈ members →
      Json.Part part m.2 → Json.Part part (.obj members)

/-- A value without a double inside. -/
def Json.FloatFree (value : Json) : Prop := ∀ x, ¬ Json.Part (.float x) value

/-- An integer has no floats in it. -/
@[simp] theorem Json.floatFree_int (n : Int) : (Json.int n).FloatFree := fun _ h ↦ (by cases h)

/-- A string has no floats in it. -/
@[simp] theorem Json.floatFree_str (s : String) : (Json.str s).FloatFree := fun _ h ↦ (by cases h)

/-- An array has no floats when none of its items has any. -/
@[simp] theorem Json.floatFree_arr {items : List Json} :
    (Json.arr items).FloatFree ↔ ∀ item ∈ items, item.FloatFree := by
  constructor
  · exact fun h item hitem x hx ↦ h x (.item hitem hx)
  · intro h x hx
    cases hx with
    | item hitem hx => exact h _ hitem x hx

/-- An object has no floats when none of its members has any. -/
@[simp] theorem Json.floatFree_obj {members : List (String × Json)} :
    (Json.obj members).FloatFree ↔ ∀ m ∈ members, m.2.FloatFree := by
  constructor
  · exact fun h m hm x hx ↦ h x (.member hm hx)
  · intro h x hx
    cases hx with
    | member hm hx => exact h _ hm x hx

/-- A number that is a double. -/
def Number.IsFloat (n : Number) : Prop := ∃ x, n = .float x

namespace Json

/-- A member of a value without floats has none. -/
theorem FloatFree.getItem {value item : Json} {key : String} (h : value.FloatFree)
    (hitem : value.getItem key = .ok item) : item.FloatFree := by
  cases value with
  | obj members =>
    unfold Json.getItem at hitem
    dsimp only at hitem
    split at hitem
    · next m hm =>
      cases hitem
      exact Json.floatFree_obj.mp h m (List.mem_of_find?_eq_some hm)
    · cases hitem
  | _ => cases hitem

/-- Nor have the items that it is iterated over. -/
theorem FloatFree.iter {value : Json} {items : List Json} (h : value.FloatFree)
    (hitems : value.iter = .ok items) : ∀ item ∈ items, item.FloatFree := by
  cases value with
  | arr xs =>
    cases hitems
    exact Json.floatFree_arr.mp h
  | obj members =>
    cases hitems
    intro item hitem
    obtain ⟨m, -, rfl⟩ := List.mem_map.mp hitem
    exact Json.floatFree_str _
  | str s =>
    cases hitems
    intro item hitem
    obtain ⟨c, -, rfl⟩ := List.mem_map.mp hitem
    exact Json.floatFree_str _
  | _ => cases hitems

/-- Nor is the number that it is read as. -/
theorem FloatFree.number {value : Json} {n : Number} (h : value.FloatFree)
    (hn : value.number = .ok n) : ¬ n.IsFloat := by
  rintro ⟨x, rfl⟩
  cases value with
  | float y =>
    cases hn
    exact h _ .self
  | _ => cases hn

end Json

/-! ### Where an overflow comes from -/

/-- When the computation overflows, the integer is one of these. -/
def OverflowsOnly {α : Type} (P : Int → Prop) (x : Except Exception α) : Prop :=
  ∀ n, x = .error (.overflowError n) → P n

namespace OverflowsOnly

variable {α β : Type} {P : Int → Prop}

/-- A result is no exception. -/
theorem of_ok (a : α) : OverflowsOnly P (.ok a) := fun _ h ↦ (by cases h)

/-- A computation goes on with one that overflows only. -/
theorem bind {x : Except Exception α} {f : α → Except Exception β} (hx : OverflowsOnly P x)
    (hf : ∀ a, x = .ok a → OverflowsOnly P (f a)) : OverflowsOnly P (x >>= f) := by
  intro n h
  rcases bind_eq_error.mp h with hx' | ⟨a, ha, hfa⟩
  · exact hx n hx'
  · exact hf a ha n hfa

/-- A loop overflows only where a pass does. -/
theorem foldlM {σ : Type} {f : σ → α → Except Exception σ} {I : σ → Prop} {xs : List α}
    (hstep : ∀ s, ∀ a ∈ xs, I s → OverflowsOnly P (f s a) ∧ ∀ s', f s a = .ok s' → I s') {s : σ}
    (hs : I s) :
    OverflowsOnly P (xs.foldlM f s) ∧ ∀ s', xs.foldlM f s = .ok s' → I s' := by
  induction xs generalizing s with
  | nil =>
    refine ⟨of_ok _, fun s' h ↦ ?_⟩
    cases h
    exact hs
  | cons a rest ih =>
    rw [List.foldlM_cons]
    have hfirst := hstep s a List.mem_cons_self hs
    have hrest := fun s' hs' ↦ ih (fun s b hb ↦ hstep s b (List.mem_cons_of_mem _ hb)) (s := s') hs'
    constructor
    · exact bind hfirst.1 fun s' hs' ↦ (hrest s' (hfirst.2 s' hs')).1
    · intro s' h
      obtain ⟨next, hnext, h⟩ := bind_eq_ok.mp h
      exact (hrest next (hfirst.2 next hnext)).2 s' h

/-- A loop overflows only when each turn does. -/
theorem forM {f : α → Except Exception Unit} {xs : List α} (hf : ∀ a, OverflowsOnly P (f a)) :
    OverflowsOnly P (xs.forM f) := by
  induction xs with
  | nil => exact of_ok _
  | cons a rest ih => exact bind (hf a) fun _ _ ↦ ih

/-- Computing with numbers overflows at an integer beyond the doubles, next to a double. -/
theorem combine {onInts : Int → Int → Int} {onFloats : Float → Float → Float} {a b : Number}
    (h : ∀ n, (Float.ofInt n).isFinite = false → a.IsFloat ∨ b.IsFloat → P n) :
    OverflowsOnly P (Number.combine onInts onFloats a b) := by
  intro n hn
  obtain ⟨⟨m, hm, hfinite⟩, hmixed⟩ := Number.combine_error hn
  cases hm
  exact h n hfinite hmixed

/-- `value[key]` does not overflow. -/
theorem getItem (value : Json) (key : String) : OverflowsOnly P (value.getItem key) := by
  intro n h
  unfold Json.getItem at h
  split at h
  · split at h <;> cases h
  · cases h

/-- Iteration does not overflow. -/
theorem iter (value : Json) : OverflowsOnly P value.iter := by
  intro n h
  cases value <;> cases h

/-- `len` does not overflow. -/
theorem len (value : Json) : OverflowsOnly P value.len := by
  intro n h
  cases value <;> cases h

/-- Reading a number does not overflow. -/
theorem number (value : Json) : OverflowsOnly P value.number := by
  intro n h
  cases value <;> cases h

/-- `hash` does not overflow. -/
theorem hash (value : Json) : OverflowsOnly P value.hash := by
  intro n h
  cases value <;> cases h

/-- Reading an index does not overflow. -/
theorem index (value : Json) : OverflowsOnly P value.index := by
  intro n h
  cases value <;> cases h

/-- `xs[i]` does not overflow. -/
theorem listItem (xs : List α) (i : Int) : OverflowsOnly P (listItem xs i) := by
  intro n h
  unfold Python.listItem at h
  split at h
  · split at h <;> cases h
  · cases h

end OverflowsOnly

end PenroseRoute.Lib.Python
