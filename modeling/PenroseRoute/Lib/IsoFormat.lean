import Mathlib.Algebra.Ring.Nat
import Mathlib.Data.List.Basic

/-!
# ISO texts of instants

`datetime.isoformat` of an instant in UTC, microseconds since 1970, for the years 1 to 9999 that
a `datetime` can have. All fields have a fixed width and the fraction is left out when it is
zero; the texts are in the order of the instants nevertheless. Nothing here depends on the
repository.
-/

namespace PenroseRoute.Lib

/-! ### Numbers and segments -/

/-- A number in decimal, padded with zeros to a width. -/
def digits : (width n : Nat) → List Char
  | 0, _ => []
  | width + 1, n => digits width (n / 10) ++ [Nat.digitChar (n % 10)]

/-- It has the width that was asked for. -/
@[simp] theorem length_digits (width n : Nat) : (digits width n).length = width := by
  induction width generalizing n with
  | zero => rfl
  | succ width ih => rw [digits, List.length_append, ih, List.length_singleton]

/-- Texts of one length decide before what follows them. -/
theorem append_lt_append {xs ys : List Char} (hlen : xs.length = ys.length) (h : xs < ys)
    (us vs : List Char) : xs ++ us < ys ++ vs := by
  induction xs generalizing ys with
  | nil =>
    cases ys with
    | nil => exact absurd h (List.lt_irrefl _)
    | cons y ys => cases hlen
  | cons x xs ih =>
    cases ys with
    | nil => cases hlen
    | cons y ys =>
      rw [List.cons_append, List.cons_append, List.cons_lt_cons_iff]
      rcases List.cons_lt_cons_iff.mp h with hlt | ⟨he, hlt⟩
      · exact .inl hlt
      · exact .inr ⟨he, ih (Nat.succ.inj hlen) hlt⟩

/-- The parts of a number at a radix decide in their order. -/
theorem div_lt_or_mod_lt {a b : Nat} (k : Nat) (h : a < b) :
    a / k < b / k ∨ (a / k = b / k ∧ a % k < b % k) := by
  rcases Nat.lt_or_eq_of_le (Nat.div_le_div_right (c := k) (Nat.le_of_lt h)) with hlt | he
  · exact .inl hlt
  · have ha := Nat.div_add_mod a k
    have hb := Nat.div_add_mod b k
    rw [he] at ha
    exact .inr ⟨he, by omega⟩

/-- Padded numbers are in the order of the numbers. -/
theorem digits_lt {width a b : Nat} (hb : b < 10 ^ width) (h : a < b) :
    digits width a < digits width b := by
  induction width generalizing a b with
  | zero => omega
  | succ width ih =>
    rw [digits, digits]
    rcases div_lt_or_mod_lt 10 h with hlt | ⟨he, hlt⟩
    · refine append_lt_append (by simp) (ih ?_ hlt) _ _
      rw [Nat.div_lt_iff_lt_mul (by decide), ← Nat.pow_succ]
      exact hb
    · rw [he]
      apply List.append_left_lt
      rw [List.cons_lt_cons_iff]
      left
      have hsmall : ∀ x < 10, ∀ y < 10, x < y → Nat.digitChar x < Nat.digitChar y := by decide
      exact hsmall _ (Nat.mod_lt _ (by decide)) _ (Nat.mod_lt _ (by decide)) hlt

/-- A fixed-width field and what follows it, in a text. -/
def field (width n : Nat) (separator : Char) (rest : List Char) : List Char :=
  digits width n ++ separator :: rest

/-- Fields of one width decide before what follows them. -/
theorem field_lt {width a b : Nat} (hb : b < 10 ^ width) {separator : Char}
    {us vs : List Char} (h : a < b ∨ (a = b ∧ us < vs)) :
    field width a separator us < field width b separator vs := by
  rcases h with hlt | ⟨rfl, hlt⟩
  · exact append_lt_append (by simp) (digits_lt hb hlt) _ _
  · exact List.append_left_lt (List.cons_lt_cons_iff.mpr (.inr ⟨rfl, hlt⟩))

/-- The segment that a position falls into, and its place there, for segments laid one after the
other. -/
def locate? : (lengths : List Nat) → (position : Nat) → Option (Nat × Nat)
  | [], _ => none
  | length :: rest, position =>
    if position < length then some (0, position)
    else (locate? rest (position - length)).map fun (index, place) ↦ (index + 1, place)

/-- A position is inside its segment. -/
theorem locate?_bound {lengths : List Nat} {position : Nat} {found : Nat × Nat}
    (h : locate? lengths position = some found) :
    found.1 < lengths.length ∧ ∃ length ∈ lengths, found.2 < length := by
  induction lengths generalizing position found with
  | nil => cases h
  | cons length rest ih =>
    rw [locate?] at h
    split at h
    · next hlt =>
      cases h
      exact ⟨Nat.succ_pos _, length, List.mem_cons_self, hlt⟩
    · obtain ⟨inner, hinner, rfl⟩ := Option.map_eq_some_iff.mp h
      obtain ⟨hindex, other, hmem, hplace⟩ := ih hinner
      exact ⟨Nat.succ_lt_succ hindex, other, List.mem_cons_of_mem _ hmem, hplace⟩

/-- Later positions fall into later segments, or behind in the same one. -/
theorem locate?_lt {lengths : List Nat} {a b : Nat} {found later : Nat × Nat}
    (ha : locate? lengths a = some found) (hb : locate? lengths b = some later) (h : a < b) :
    found.1 < later.1 ∨ (found.1 = later.1 ∧ found.2 < later.2) := by
  induction lengths generalizing a b found later with
  | nil => cases ha
  | cons length rest ih =>
    rw [locate?] at ha hb
    split at ha
    · cases ha
      split at hb
      · cases hb
        exact .inr ⟨rfl, h⟩
      · obtain ⟨inner, -, rfl⟩ := Option.map_eq_some_iff.mp hb
        exact .inl (Nat.succ_pos _)
    · split at hb
      · omega
      · obtain ⟨inner, hinner, rfl⟩ := Option.map_eq_some_iff.mp ha
        obtain ⟨inner', hinner', rfl⟩ := Option.map_eq_some_iff.mp hb
        rcases ih hinner hinner' (by omega) with hlt | ⟨he, hlt⟩
        · exact .inl (Nat.succ_lt_succ hlt)
        · exact .inr ⟨congrArg Nat.succ he, hlt⟩

/-! ### Dates -/

/-- A leap year of the Gregorian calendar. -/
def isLeap (year : Nat) : Bool := year % 4 = 0 && (year % 100 ≠ 0 || year % 400 = 0)

/-- The lengths of the months of a year. -/
def monthLengths (year : Nat) : List Nat :=
  [31, if isLeap year then 29 else 28, 31, 30, 31, 30, 31, 31, 30, 31, 30, 31]

/-- The lengths of the years from 1 to 9999. -/
def yearLengths : List Nat :=
  (List.range' 1 9999).map fun year ↦ if isLeap year then 366 else 365

/-- Year, month and day of a day, counted from the first day of year 1. -/
def dateOf? (day : Nat) : Option (Nat × Nat × Nat) := do
  let (yearIndex, dayOfYear) ← locate? yearLengths day
  let (monthIndex, dayOfMonth) ← locate? (monthLengths (yearIndex + 1)) dayOfYear
  return (yearIndex + 1, monthIndex + 1, dayOfMonth + 1)

/-! ### Texts -/

/-- The microseconds from the first day of year 1 to 1970. -/
def epochMicros : Int := 62135596800000000

/-- The end of a text: the fraction, unless it is zero, and the offset of UTC. -/
def fractionText (micros : Nat) : List Char :=
  if micros = 0 then "+00:00".toList else '.' :: digits 6 micros ++ "+00:00".toList

/-- The text of a date and a time of day in microseconds. -/
def instantText (date : Nat × Nat × Nat) (timeOfDay : Nat) : List Char :=
  let seconds := timeOfDay / 1000000
  field 4 date.1 '-' <| field 2 date.2.1 '-' <| field 2 date.2.2 'T' <|
    field 2 (seconds / 60 / 60) ':' <| field 2 (seconds / 60 % 60) ':' <|
      digits 2 (seconds % 60) ++ fractionText (timeOfDay % 1000000)

/-- `datetime.isoformat` of an instant in UTC, unless no `datetime` is that instant. -/
def isoformat? (instant : Int) : Option (List Char) :=
  let micros := instant + epochMicros
  if micros < 0 then none
  else (dateOf? (micros.toNat / 86400000000)).map fun date ↦
    instantText date (micros.toNat % 86400000000)

/-! ### Order -/

/-- Two dates in the order of year, month and day. -/
def DateBefore (a b : Nat × Nat × Nat) : Prop :=
  a.1 < b.1 ∨ (a.1 = b.1 ∧ (a.2.1 < b.2.1 ∨ (a.2.1 = b.2.1 ∧ a.2.2 < b.2.2)))

/-- Later days have later dates. -/
theorem dateOf?_lt {a b : Nat} {date later : Nat × Nat × Nat} (ha : dateOf? a = some date)
    (hb : dateOf? b = some later) (h : a < b) : DateBefore date later := by
  obtain ⟨⟨year, dayOfYear⟩, hy, ha⟩ := Option.bind_eq_some_iff.mp ha
  obtain ⟨⟨month, day⟩, hm, ha⟩ := Option.bind_eq_some_iff.mp ha
  obtain ⟨⟨year', dayOfYear'⟩, hy', hb⟩ := Option.bind_eq_some_iff.mp hb
  obtain ⟨⟨month', day'⟩, hm', hb⟩ := Option.bind_eq_some_iff.mp hb
  cases ha
  cases hb
  rcases locate?_lt hy hy' h with hlt | ⟨rfl, hlt⟩
  · exact .inl (Nat.succ_lt_succ hlt)
  · rcases locate?_lt hm hm' hlt with hlt | ⟨he, hlt⟩
    · exact .inr ⟨rfl, .inl (Nat.succ_lt_succ hlt)⟩
    · exact .inr ⟨rfl, .inr ⟨congrArg Nat.succ he, Nat.succ_lt_succ hlt⟩⟩

/-- The fields of a date fit their widths. -/
theorem dateOf?_bound {day : Nat} {date : Nat × Nat × Nat} (h : dateOf? day = some date) :
    date.1 < 10 ^ 4 ∧ date.2.1 < 10 ^ 2 ∧ date.2.2 < 10 ^ 2 := by
  obtain ⟨⟨year, dayOfYear⟩, hy, h⟩ := Option.bind_eq_some_iff.mp h
  obtain ⟨⟨month, dayOfMonth⟩, hm, h⟩ := Option.bind_eq_some_iff.mp h
  cases h
  have hyear := (locate?_bound hy).1
  obtain ⟨hmonth, length, hlength, hday⟩ := locate?_bound hm
  have hlong : length ≤ 31 := by
    simp only [monthLengths, List.mem_cons, List.not_mem_nil, or_false] at hlength
    split at hlength <;> omega
  rw [yearLengths, List.length_map, List.length_range'] at hyear
  simp only [monthLengths, List.length_cons, List.length_nil] at hmonth
  dsimp only at hyear hmonth hday ⊢
  omega

/-- Fractions are in order, and no fraction is before all others. -/
theorem fractionText_lt {a b : Nat} (hb : b < 10 ^ 6) (h : a < b) :
    fractionText a < fractionText b := by
  rw [fractionText, fractionText, if_neg (by omega : b ≠ 0)]
  split
  · exact List.cons_lt_cons_iff.mpr (.inl (by decide))
  · rw [List.cons_append, List.cons_append]
    exact List.cons_lt_cons_iff.mpr (.inr ⟨rfl, append_lt_append (by simp) (digits_lt hb h) _ _⟩)

/-- Texts are in the order of date and time of day. -/
theorem instantText_lt {date later : Nat × Nat × Nat} {a b : Nat}
    (hwidth : later.1 < 10 ^ 4 ∧ later.2.1 < 10 ^ 2 ∧ later.2.2 < 10 ^ 2)
    (hday : b < 86400000000) (h : DateBefore date later ∨ (date = later ∧ a < b)) :
    instantText date a < instantText later b := by
  obtain ⟨hyear, hmonth, hdayOfMonth⟩ := hwidth
  rw [instantText, instantText]
  rcases h with hbefore | ⟨rfl, hlt⟩
  · refine field_lt hyear (hbefore.imp_right fun ⟨he, hrest⟩ ↦ ⟨he, field_lt hmonth ?_⟩)
    exact hrest.imp_right fun ⟨he, hlt⟩ ↦ ⟨he, field_lt hdayOfMonth (.inl hlt)⟩
  · refine field_lt hyear (.inr ⟨rfl, field_lt hmonth (.inr ⟨rfl, field_lt hdayOfMonth
      (.inr ⟨rfl, ?_⟩)⟩)⟩)
    have hhours : b / 1000000 / 60 / 60 < 10 ^ 2 := by omega
    have hminutes : b / 1000000 / 60 % 60 < 10 ^ 2 := by omega
    have hseconds : b / 1000000 % 60 < 10 ^ 2 := by omega
    apply field_lt hhours
    rcases div_lt_or_mod_lt 1000000 hlt with hs | ⟨hs, hmicros⟩
    · rcases div_lt_or_mod_lt 60 hs with hm | ⟨hm, hsecond⟩
      · exact (div_lt_or_mod_lt 60 hm).imp_right fun ⟨he, hminute⟩ ↦
          ⟨he, field_lt hminutes (.inl hminute)⟩
      · rw [hm]
        exact .inr ⟨rfl, field_lt hminutes (.inr ⟨rfl,
          append_lt_append (by simp) (digits_lt hseconds hsecond) _ _⟩)⟩
    · rw [hs]
      exact .inr ⟨rfl, field_lt hminutes (.inr ⟨rfl,
        List.append_left_lt (fractionText_lt (Nat.mod_lt _ (by decide)) hmicros)⟩)⟩

/-- Texts are in the order of their instants. -/
theorem isoformat?_lt {a b : Int} {s t : List Char} (ha : isoformat? a = some s)
    (hb : isoformat? b = some t) (h : a < b) : s < t := by
  rw [isoformat?] at ha hb
  split at ha
  · cases ha
  · split at hb
    · cases hb
    · obtain ⟨date, hdate, rfl⟩ := Option.map_eq_some_iff.mp ha
      obtain ⟨later, hlater, rfl⟩ := Option.map_eq_some_iff.mp hb
      have hlt : (a + epochMicros).toNat < (b + epochMicros).toNat := by omega
      refine instantText_lt (dateOf?_bound hlater) (Nat.mod_lt _ (by decide)) ?_
      rcases div_lt_or_mod_lt 86400000000 hlt with hday | ⟨hday, htime⟩
      · exact .inl (dateOf?_lt hdate hlater hday)
      · rw [hday, hlater, Option.some.injEq] at hdate
        exact .inr ⟨hdate.symm, htime⟩

/-- So texts are compared as their instants are. -/
theorem isoformat?_lt_iff {a b : Int} {s t : List Char} (ha : isoformat? a = some s)
    (hb : isoformat? b = some t) : s < t ↔ a < b := by
  refine ⟨fun hlt ↦ ?_, isoformat?_lt ha hb⟩
  rcases Int.lt_trichotomy a b with h | rfl | h
  · exact h
  · rw [ha, Option.some.injEq] at hb
    subst hb
    exact absurd hlt (List.lt_irrefl _)
  · exact absurd (List.lt_trans hlt (isoformat?_lt hb ha h)) (List.lt_irrefl _)

/-- Different instants have different texts. -/
theorem isoformat?_inj {a b : Int} {s t : List Char} (ha : isoformat? a = some s)
    (hb : isoformat? b = some t) : s = t ↔ a = b := by
  constructor
  · rintro rfl
    rcases Int.lt_trichotomy a b with h | h | h
    · exact absurd (isoformat?_lt ha hb h) (List.lt_irrefl _)
    · exact h
    · exact absurd (isoformat?_lt hb ha h) (List.lt_irrefl _)
  · rintro rfl
    rw [ha, Option.some.injEq] at hb
    exact hb

/-- A whole second is before its fractions, although its text is a prefix of none of them. -/
example : (isoformat? 1500000).map String.ofList = some "1970-01-01T00:00:01.500000+00:00" := by
  decide +kernel

end PenroseRoute.Lib
