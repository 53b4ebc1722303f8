import Mathlib.Data.List.Sort

/-!
# Reading a log page by page

A log of rows with increasing keys, and a reader that asks for the next rows after its cursor and
moves the cursor to the last one it receives. As long as later rows have later keys, what the
reader has received is the beginning of the log. Nothing here depends on the repository.
-/

namespace PenroseRoute.Lib

universe u v

variable {α : Type u} {κ : Type v} [LinearOrder κ] {key : α → κ}

/-- The first rows whose key is after the cursor, by key. -/
def page (key : α → κ) (after : κ) (limit : Nat) (rows : List α) : List α :=
  ((rows.filter fun row ↦ after < key row).insertionSort fun a b ↦ key a ≤ key b).take limit

/-- On a log in the order of its keys, a page is what follows the rows up to the cursor. -/
theorem page_append {after : κ} {limit : Nat} {seen rest : List α}
    (hseen : ∀ row ∈ seen, key row ≤ after) (hrest : ∀ row ∈ rest, after < key row)
    (hsorted : rest.Pairwise fun a b ↦ key a < key b) :
    page key after limit (seen ++ rest) = rest.take limit := by
  have hnone : seen.filter (fun row ↦ after < key row) = [] := by
    rw [List.filter_eq_nil_iff]
    intro row hrow
    simpa using hseen row hrow
  have hall : rest.filter (fun row ↦ after < key row) = rest := by
    rw [List.filter_eq_self]
    intro row hrow
    simpa using hrest row hrow
  rw [page, List.filter_append, hnone, hall, List.nil_append]
  rw [List.Pairwise.insertionSort_eq (hsorted.imp le_of_lt)]

/-- A reader and what it has received. -/
structure Reader (α : Type u) (κ : Type v) where
  cursor : κ
  received : List α
  /-- How often it has asked. -/
  polls : Nat

namespace Reader

/-- The reader receives a page. -/
def receive (key : α → κ) (reader : Reader α κ) (rows : List α) : Reader α κ where
  cursor := (rows.getLast?.map key).getD reader.cursor
  received := reader.received ++ rows
  polls := reader.polls + 1

/-- The reader has received the rows of the log up to its cursor. -/
structure UpTo (key : α → κ) (start : κ) (rows : List α) (reader : Reader α κ) : Prop where
  split : ∃ rest, rows = reader.received ++ rest ∧ ∀ row ∈ rest, reader.cursor < key row
  seen : ∀ row ∈ reader.received, key row ≤ reader.cursor
  attained : reader.cursor = start ∨ ∃ row ∈ reader.received, key row = reader.cursor

variable {start : κ} {rows : List α} {reader : Reader α κ}

/-- What is received is the beginning of the log. -/
theorem UpTo.isPrefix (h : reader.UpTo key start rows) : reader.received <+: rows := by
  obtain ⟨rest, hrows, -⟩ := h.split
  exact ⟨rest, hrows.symm⟩

/-- A row is received exactly if its key is not after the cursor. -/
theorem UpTo.mem_received_iff (h : reader.UpTo key start rows) (row : α) :
    row ∈ reader.received ↔ row ∈ rows ∧ key row ≤ reader.cursor := by
  obtain ⟨rest, hrows, hrest⟩ := h.split
  constructor
  · intro hrow
    exact ⟨hrows ▸ List.mem_append_left _ hrow, h.seen row hrow⟩
  · rintro ⟨hrow, hle⟩
    rw [hrows] at hrow
    cases List.mem_append.mp hrow with
    | inl hrow => exact hrow
    | inr hrow => exact absurd (hrest row hrow) (not_lt.mpr hle)

/-- Rows with later keys do not come between the reader and the log. -/
theorem UpTo.append (h : reader.UpTo key start rows) {new : List α}
    (hstart : ∀ row ∈ new, start < key row)
    (hnew : ∀ row ∈ rows, ∀ row' ∈ new, key row < key row') :
    reader.UpTo key start (rows ++ new) := by
  refine { h with split := ?_ }
  obtain ⟨rest, hrows, hrest⟩ := h.split
  refine ⟨rest ++ new, by rw [hrows, List.append_assoc], fun row hrow ↦ ?_⟩
  cases List.mem_append.mp hrow with
  | inl hrow => exact hrest row hrow
  | inr hrow =>
    cases h.attained with
    | inl hcursor => exact hcursor ▸ hstart row hrow
    | inr hcursor =>
      obtain ⟨last, hlast, hkey⟩ := hcursor
      exact hkey ▸ hnew last (h.isPrefix.subset hlast) row hrow

/-- The rows of a page follow those received, and the reader asks for at most as many as the page
may have. -/
theorem UpTo.poll (h : reader.UpTo key start rows)
    (hsorted : rows.Pairwise fun a b ↦ key a < key b) (limit : Nat) :
    (reader.receive key (page key reader.cursor limit rows)).UpTo key start rows ∧
      (reader.receive key (page key reader.cursor limit rows)).received.length =
        min rows.length (reader.received.length + limit) := by
  obtain ⟨rest, hrows, hrest⟩ := h.split
  have hsplit := hrows ▸ hsorted
  rw [List.pairwise_append] at hsplit
  have hpage : page key reader.cursor limit rows = rest.take limit := by
    rw [hrows]
    exact page_append h.seen hrest hsplit.2.1
  rw [hpage]
  refine ⟨?_, ?_⟩
  · have hparts : (rest.take limit ++ rest.drop limit).Pairwise fun a b ↦ key a < key b := by
      rw [List.take_append_drop]
      exact hsplit.2.1
    rw [List.pairwise_append] at hparts
    cases hlast : (rest.take limit).getLast? with
    | none =>
      -- Nothing is left, or nothing was asked for.
      have hnil : rest.take limit = [] := List.getLast?_eq_none_iff.mp hlast
      refine ⟨⟨rest, ?_, ?_⟩, ?_, ?_⟩ <;> simp only [receive, hnil, List.getLast?_nil,
        Option.map_none, Option.getD_none, List.append_nil]
      · exact hrows
      · exact hrest
      · exact h.seen
      · exact h.attained
    | some last =>
      obtain ⟨front, hfront⟩ := List.getLast?_eq_some_iff.mp hlast
      have hmem : last ∈ rest.take limit := by rw [hfront]; simp
      have hbelow : ∀ row ∈ rest.take limit, key row ≤ key last := by
        intro row hrow
        have hpair := hparts.1
        rw [hfront, List.pairwise_append] at hpair
        rw [hfront, List.mem_append, List.mem_singleton] at hrow
        cases hrow with
        | inl hrow => exact le_of_lt (hpair.2.2 row hrow last (List.mem_singleton.mpr rfl))
        | inr hrow => rw [hrow]
      have hcursor : reader.cursor < key last := hrest last (List.take_subset _ _ hmem)
      refine ⟨⟨rest.drop limit, ?_, ?_⟩, ?_, .inr ⟨last, ?_, ?_⟩⟩ <;>
        simp only [receive, hlast, Option.map_some, Option.getD_some]
      · rw [List.append_assoc, List.take_append_drop, hrows]
      · exact fun row hrow ↦ hparts.2.2 last hmem row hrow
      · intro row hrow
        cases List.mem_append.mp hrow with
        | inl hrow => exact (h.seen row hrow).trans (le_of_lt hcursor)
        | inr hrow => exact hbelow row hrow
      · exact List.mem_append_right _ hmem
  · rw [receive, List.length_append, List.length_take, hrows, List.length_append]
    omega

end Reader

end PenroseRoute.Lib
