import Mathlib.Data.List.Sort

/-!
# Walking a table by pages

A table is walked from its greatest key down, a page at a time. A page is what a query
returns first; the query orders rows by key alone, and may return rows with equal keys in
any order. The next query asks for the rows past the last row of the page, where rows with
equal keys are told apart by their ids. A page may then end among rows with equal keys
that were returned in another order than that of their ids, and rows are skipped or
returned again; they are not exactly if a page never ends among equal keys.

## Main definitions

* `Past`, `rest` — the rows past a cursor
* `NewestFirst` — what a query may return
* `Walk` — the pages of a walk
* `Separated` — no page ends among rows with equal keys

## Main results

* `length_rest_lt` — a walk gets to its end
* `flatten_perm_iff` — every walk returns every row once if and only if the table is separated
-/

namespace Logit.Pagination

variable {α κ ι : Type*} [LinearOrder κ] [LinearOrder ι]

section Walks

variable (key : α → κ) (id : α → ι) (rows : List α) (size : ℕ)

/-- A row is past a cursor; every row is if there is none. -/
def Past (cursor : Option α) (row : α) : Prop :=
  ∀ c ∈ cursor, key row < key c ∨ key row = key c ∧ id row < id c

instance (cursor : Option α) (row : α) : Decidable (Past key id cursor row) :=
  match cursor with
  | none => .isTrue nofun
  | some c => decidable_of_iff (key row < key c ∨ key row = key c ∧ id row < id c)
      ⟨fun h _ hc => Option.some.inj hc ▸ h, fun h => h c rfl⟩

/-- The rows past a cursor. -/
def rest (cursor : Option α) : List α := rows.filter (Past key id cursor ·)

/-- The rows in an order a query may return them in. -/
def NewestFirst (rows all : List α) : Prop :=
  all.Perm rows ∧ all.Pairwise fun first second => key second ≤ key first

/-- The pages of a walk that starts at a cursor. -/
inductive Walk : Option α → List (List α) → Prop
  | last {cursor : Option α} {all : List α}
      (hall : NewestFirst key (rest key id rows cursor) all) (hfew : all.length ≤ size) :
      Walk cursor [all]
  | more {cursor : Option α} {page tail : List α} {c : α} {pages : List (List α)}
      (hall : NewestFirst key (rest key id rows cursor) (page ++ [c] ++ tail))
      (hsize : (page ++ [c]).length = size) (hmany : tail ≠ []) (hwalk : Walk (some c) pages) :
      Walk cursor ((page ++ [c]) :: pages)

/-- How many rows have a greater key. -/
def above (c : α) : ℕ := rows.countP (key c < key ·)

/-- How many rows have the same key. -/
def ties (c : α) : ℕ := rows.countP (key · = key c)

/-- No page ends among rows with equal keys: a row whose key is at the end of a page, and not of
the table, has it alone. -/
def SeparatedAt (k : ℕ) : Prop :=
  k * size < rows.length → ∀ c ∈ rows, above key rows c < k * size →
    k * size ≤ above key rows c + ties key rows c → ties key rows c = 1

def Separated : Prop := ∀ k, SeparatedAt key rows size k

end Walks

variable {key : α → κ} {id : α → ι} {rows : List α} {size : ℕ} {cursor : Option α}

/-! ## Rows past a cursor -/

theorem mem_rest {row : α} :
    row ∈ rest key id rows cursor ↔ row ∈ rows ∧ Past key id cursor row := by
  simp [rest]

@[simp] theorem rest_none : rest key id rows none = rows :=
  List.filter_eq_self.mpr fun _ _ => decide_eq_true nofun

theorem past_some {c row : α} :
    Past key id (some c) row ↔ key row < key c ∨ key row = key c ∧ id row < id c := by
  simp [Past]

theorem Past.trans {c row : α} (hrow : Past key id (some c) row) (hc : Past key id cursor c) :
    Past key id cursor row := by
  intro d hd
  rcases past_some.mp hrow with hlt | ⟨heq, hid⟩
  · rcases hc d hd with h | ⟨h, -⟩
    · exact .inl (hlt.trans h)
    · exact .inl (h ▸ hlt)
  · rw [heq]
    exact (hc d hd).imp_right fun h => ⟨h.1, hid.trans h.2⟩

theorem not_past_self (c : α) : ¬ Past key id (some c) c := by
  rw [past_some]
  rintro (h | ⟨-, h⟩)
  · exact lt_irrefl _ h
  · exact lt_irrefl _ h

/-- The rows past a row that is past the cursor are among those past the cursor. -/
theorem rest_some {c : α} (hc : c ∈ rest key id rows cursor) :
    rest key id rows (some c) = (rest key id rows cursor).filter (Past key id (some c) ·) := by
  rw [rest, rest, List.filter_filter]
  refine List.filter_congr fun row _ => ?_
  by_cases hrow : Past key id (some c) row
  · simp [hrow, hrow.trans (mem_rest.mp hc).2]
  · simp [hrow]

/-- Fewer rows are past a row that is past the cursor. -/
theorem length_rest_lt {c : α} (hc : c ∈ rest key id rows cursor) :
    (rest key id rows (some c)).length < (rest key id rows cursor).length := by
  rw [rest_some hc]
  exact List.length_filter_lt_length_iff_exists.mpr ⟨c, hc, by simpa using not_past_self c⟩

/-! ## Queries -/

/-- Rows in the order of their keys, the greatest first, and then of their ids. -/
def ByKeyAndId (key : α → κ) (id : α → ι) (first second : α) : Prop :=
  key second < key first ∨ key second = key first ∧ id first ≤ id second

theorem ByKeyAndId.total (first second : α) :
    ByKeyAndId key id first second ∨ ByKeyAndId key id second first := by
  rcases lt_trichotomy (key first) (key second) with h | h | h
  · exact .inr (.inl h)
  · exact (le_total (id first) (id second)).imp (fun hid => .inr ⟨h.symm, hid⟩)
      fun hid => .inr ⟨h, hid⟩
  · exact .inl (.inl h)

theorem ByKeyAndId.trans {first second third : α} (h : ByKeyAndId key id first second)
    (h' : ByKeyAndId key id second third) : ByKeyAndId key id first third := by
  rcases h with h | ⟨h, hid⟩ <;> rcases h' with h' | ⟨h', hid'⟩
  · exact .inl (h'.trans h)
  · exact .inl (h' ▸ h)
  · exact .inl (h ▸ h')
  · exact .inr ⟨h'.trans h, hid.trans hid'⟩

/-- A query may return equal keys in the order of their ids. -/
theorem exists_byKeyAndId (key : α → κ) (id : α → ι) (rows : List α) :
    ∃ all : List α, all.Perm rows ∧ all.Pairwise (ByKeyAndId key id) := by
  classical
  have : Std.Total (ByKeyAndId key id) := ⟨ByKeyAndId.total⟩
  have : IsTrans α (ByKeyAndId key id) := ⟨fun _ _ _ => ByKeyAndId.trans⟩
  exact ⟨rows.insertionSort (ByKeyAndId key id), List.perm_insertionSort _ rows,
    List.pairwise_insertionSort _ rows⟩

theorem newestFirst_of_byKeyAndId {all : List α} (hperm : all.Perm rows)
    (hsorted : all.Pairwise (ByKeyAndId key id)) : NewestFirst key rows all :=
  ⟨hperm, hsorted.imp fun h => h.elim le_of_lt fun heq => heq.1.le⟩

/-- What is returned is one page, or a page with its last row and what is left. -/
theorem exists_page (hsize : 1 ≤ size) {all : List α} (hmany : size < all.length) :
    ∃ page c tail, all = page ++ [c] ++ tail ∧ (page ++ [c]).length = size ∧ tail ≠ [] := by
  have htake : (all.take size).length = size := List.length_take_of_le hmany.le
  have hne : all.take size ≠ [] := by
    rw [← List.length_pos_iff]
    omega
  obtain ⟨page, c, hpage⟩ := (List.eq_nil_or_concat' (all.take size)).resolve_left hne
  refine ⟨page, c, all.drop size, ?_, ?_, ?_⟩
  · rw [← hpage, List.take_append_drop]
  · rw [← hpage, htake]
  · rw [← List.length_pos_iff, List.length_drop]
    omega

/-- Every walk can be walked to its end. -/
theorem exists_walk (key : α → κ) (id : α → ι) (rows : List α) (hsize : 1 ≤ size)
    (cursor : Option α) : ∃ pages, Walk key id rows size cursor pages := by
  -- By induction on the number of rows past the cursor.
  induction hn : (rest key id rows cursor).length using Nat.strong_induction_on
    generalizing cursor with
  | _ n ih =>
    obtain ⟨all, hperm, hsorted⟩ := exists_byKeyAndId key id (rest key id rows cursor)
    have hall := newestFirst_of_byKeyAndId hperm hsorted
    rcases le_or_gt all.length size with hfew | hmany
    · exact ⟨[all], .last hall hfew⟩
    · obtain ⟨page, c, tail, rfl, hpage, htail⟩ := exists_page hsize hmany
      have hc : c ∈ rest key id rows cursor := hperm.subset (by simp)
      obtain ⟨pages, hwalk⟩ := ih _ (hn ▸ length_rest_lt hc) (some c) rfl
      exact ⟨(page ++ [c]) :: pages, .more hall hpage htail hwalk⟩

/-- A walk returns only rows past its cursor. -/
theorem mem_rest_of_walk {pages : List (List α)} (hwalk : Walk key id rows size cursor pages)
    {row : α} (hrow : row ∈ pages.flatten) : row ∈ rest key id rows cursor := by
  induction hwalk with
  | last hall hfew =>
    rw [List.flatten_singleton] at hrow
    exact hall.1.subset hrow
  | more hall _ _ _ ih =>
    rw [List.flatten_cons] at hrow
    rcases List.mem_append.mp hrow with hpage | hlater
    · exact hall.1.subset (List.mem_append_left _ hpage)
    · obtain ⟨hmem, hpast⟩ := mem_rest.mp (ih hlater)
      have hc := (mem_rest.mp (hall.1.subset (List.mem_append_left _
        (List.mem_append_right _ List.mem_cons_self)))).2
      exact mem_rest.mpr ⟨hmem, hpast.trans hc⟩

/-! ## Pages that end between keys -/

theorem ties_pos {l : List α} {row c : α} (hrow : row ∈ l) (h : key row = key c) :
    0 < ties key l c :=
  List.countP_pos_iff.mpr ⟨row, hrow, decide_eq_true h⟩

theorem countP_eq_zero {p : α → Prop} [DecidablePred p] {l : List α} (h : ∀ a ∈ l, ¬ p a) :
    l.countP p = 0 :=
  List.countP_eq_zero.mpr fun a ha => by simpa using h a ha

/-- The rows with at least a key have a greater one, or the same. -/
theorem above_add_ties (l : List α) (c : α) :
    above key l c + ties key l c = l.countP (key c ≤ key ·) := by
  induction l with
  | nil => rfl
  | cons row l ih =>
    unfold above ties at ih ⊢
    rw [List.countP_cons, List.countP_cons, List.countP_cons]
    rcases lt_trichotomy (key c) (key row) with h | h | h
    · simp only [h, h.le, h.ne', decide_true, decide_false, if_true, Bool.false_eq_true, if_false]
      omega
    · simp only [← h, lt_irrefl, le_refl, decide_true, decide_false, if_true, Bool.false_eq_true,
        if_false]
      omega
    · simp only [h.not_gt, h.not_ge, h.ne, decide_false, Bool.false_eq_true, if_false]
      omega

theorem above_add_ties_le (l : List α) (c : α) : above key l c + ties key l c ≤ l.length := by
  rw [above_add_ties]
  exact List.countP_le_length

theorem above_append (first second : List α) (c : α) :
    above key (first ++ second) c = above key first c + above key second c := List.countP_append

theorem ties_append (first second : List α) (c : α) :
    ties key (first ++ second) c = ties key first c + ties key second c := List.countP_append

theorem above_eq_zero {c : α} {l : List α} (h : ∀ row ∈ l, key row ≤ key c) : above key l c = 0 :=
  countP_eq_zero fun row hrow => not_lt.mpr (h row hrow)

/-- The walk has returned a number of pages, and exactly the rows above those past its cursor. -/
structure Clean (key : α → κ) (id : α → ι) (rows : List α) (size k : ℕ) (cursor : Option α) :
    Prop where
  length_eq : (rest key id rows cursor).length + k * size = rows.length
  lower : ∀ row ∈ rows, row ∉ rest key id rows cursor →
    ∀ other ∈ rest key id rows cursor, key other < key row

theorem Clean.start : Clean key id rows size 0 none where
  length_eq := by simp
  lower row hrow hnot := by
    rw [rest_none] at hnot
    exact absurd hrow hnot

variable {k : ℕ} {page tail : List α} {c : α}

theorem Clean.length_returned (h : Clean key id rows size k cursor) :
    (rows.filter fun row => !decide (Past key id cursor row)).length = k * size := by
  have hlength := List.length_eq_length_filter_add (l := rows) (Past key id cursor ·)
  have hstart := h.length_eq
  unfold rest at hstart
  omega

/-- The rows are those past the cursor and the ones above them. -/
theorem Clean.counts (h : Clean key id rows size k cursor) (hc : c ∈ rest key id rows cursor) :
    above key rows c = above key (rest key id rows cursor) c + k * size ∧
      ties key rows c = ties key (rest key id rows cursor) c := by
  have hpassed : ∀ row ∈ rows.filter (fun row => !decide (Past key id cursor row)),
      key c < key row := by
    intro row hrow
    obtain ⟨hrow, hnot⟩ := List.mem_filter.mp hrow
    exact h.lower row hrow (fun hmem => by simp [(mem_rest.mp hmem).2] at hnot) c hc
  have habove : (rows.filter (fun row => !decide (Past key id cursor row))).countP
      (key c < key ·) = k * size := by
    rw [List.countP_eq_length.mpr fun row hrow => decide_eq_true (hpassed row hrow)]
    exact h.length_returned
  constructor
  · rw [above, List.countP_eq_countP_filter_add rows _ (Past key id cursor ·), habove]
    rfl
  · rw [ties, List.countP_eq_countP_filter_add rows _ (Past key id cursor ·),
      countP_eq_zero fun row hrow => (hpassed row hrow).ne']
    rfl

/-- What is known of the last row of a page. -/
structure Ends (key : α → κ) (page : List α) (c : α) (tail : List α) : Prop where
  higher : ∀ row ∈ page, key c ≤ key row
  lower : ∀ row ∈ tail, key row ≤ key c

theorem NewestFirst.ends (h : NewestFirst key rows (page ++ [c] ++ tail)) :
    Ends key page c tail := by
  obtain ⟨-, hsorted⟩ := h
  obtain ⟨hfirst, -, hlast⟩ := List.pairwise_append.mp hsorted
  obtain ⟨-, -, hpage⟩ := List.pairwise_append.mp hfirst
  exact ⟨fun row hrow => hpage row hrow c List.mem_cons_self,
    fun row hrow => hlast c (by simp) row hrow⟩

/-- Where the last row of a page stands. -/
theorem Ends.counts (h : Ends key page c tail) :
    above key (page ++ [c] ++ tail) c ≤ page.length ∧
      page.length + 1 ≤ above key (page ++ [c] ++ tail) c + ties key (page ++ [c] ++ tail) c := by
  have hpage : above key page c + ties key page c = page.length := by
    rw [above_add_ties]
    exact List.countP_eq_length.mpr fun row hrow => decide_eq_true (h.higher row hrow)
  have htail : above key tail c = 0 := above_eq_zero h.lower
  have hself : above key [c] c = 0 := above_eq_zero fun row hrow => by
    rw [List.mem_singleton.mp hrow]
  have hone : ties key [c] c = 1 := by simp [ties]
  simp only [above_append, ties_append]
  omega

theorem above_perm {first second : List α} (h : first.Perm second) (c : α) :
    above key first c = above key second c := h.countP_eq _

theorem ties_perm {first second : List α} (h : first.Perm second) (c : α) :
    ties key first c = ties key second c := h.countP_eq _

/-- What is past the last row of a page that has its key alone is what is left. -/
theorem rest_perm_tail (hperm : (page ++ [c] ++ tail).Perm (rest key id rows cursor))
    (hpage : ∀ row ∈ page, key c < key row) (htail : ∀ row ∈ tail, key row < key c) :
    (rest key id rows (some c)).Perm tail := by
  have hnone : page.filter (Past key id (some c) ·) = [] :=
    List.filter_eq_nil_iff.mpr fun row hrow => by
      simp [past_some, not_lt.mpr (hpage row hrow).le, (hpage row hrow).ne']
  have hself : [c].filter (Past key id (some c) ·) = [] := by
    simp [not_past_self]
  have hall : tail.filter (Past key id (some c) ·) = tail :=
    List.filter_eq_self.mpr fun row hrow => by simp [past_some, htail row hrow]
  rw [rest_some (hperm.subset (by simp))]
  refine (hperm.symm.filter _).trans ?_
  rw [List.filter_append, List.filter_append, hnone, hself, hall]
  rfl

/-- Where the last row of a page has its key alone, the others have greater or smaller ones. -/
theorem Ends.strict (h : Ends key page c tail) (hone : ties key (page ++ [c] ++ tail) c = 1) :
    (∀ row ∈ page, key c < key row) ∧ ∀ row ∈ tail, key row < key c := by
  have hself : ties key [c] c = 1 := by simp [ties]
  rw [ties_append, ties_append, hself] at hone
  constructor
  · exact fun row hrow => lt_of_le_of_ne (h.higher row hrow) fun heq =>
      absurd (ties_pos hrow heq.symm) (by omega)
  · exact fun row hrow => lt_of_le_of_ne (h.lower row hrow) fun heq =>
      absurd (ties_pos hrow heq) (by omega)

/-- A page that ends where a group of equal keys may end ends with a key of its own. -/
theorem Clean.ties_eq_one (h : Clean key id rows size k cursor)
    (hall : NewestFirst key (rest key id rows cursor) (page ++ [c] ++ tail))
    (hsize : (page ++ [c]).length = size) (hmany : tail ≠ [])
    (hseparated : SeparatedAt key rows size (k + 1)) :
    ties key (page ++ [c] ++ tail) c = 1 := by
  have hc : c ∈ rest key id rows cursor := hall.1.subset (by simp)
  obtain ⟨hless, hreach⟩ := hall.ends.counts
  obtain ⟨habove, hties⟩ := h.counts hc
  rw [above_perm hall.1] at hless hreach
  rw [ties_perm hall.1] at hreach
  have hlength := hall.1.length_eq
  have hrows := h.length_eq
  have htail := List.length_pos_iff.mpr hmany
  simp only [List.length_append, List.length_singleton] at hlength hsize
  have hk : (k + 1) * size = k * size + size := Nat.add_one_mul k size
  rw [ties_perm hall.1, ← hties]
  apply hseparated
  · omega
  · exact (mem_rest.mp hc).1
  · omega
  · omega

/-- After a page that ends with a key of its own, what is past its last row is what is left. -/
theorem Clean.next (h : Clean key id rows size k cursor)
    (hall : NewestFirst key (rest key id rows cursor) (page ++ [c] ++ tail))
    (hsize : (page ++ [c]).length = size) (hmany : tail ≠ [])
    (hseparated : SeparatedAt key rows size (k + 1)) :
    Clean key id rows size (k + 1) (some c) ∧ (rest key id rows (some c)).Perm tail := by
  obtain ⟨hpage, hleft⟩ := hall.ends.strict (h.ties_eq_one hall hsize hmany hseparated)
  have hrest := rest_perm_tail hall.1 hpage hleft
  refine ⟨⟨?_, fun row hrow hnot other hother => ?_⟩, hrest⟩
  · have hlength := hall.1.length_eq
    have hrows := h.length_eq
    have hk : (k + 1) * size = k * size + size := Nat.add_one_mul k size
    rw [List.length_append, hsize] at hlength
    rw [hrest.length_eq]
    omega
  · have hlower : key other < key c := hleft other (hrest.subset hother)
    by_cases hmem : row ∈ rest key id rows cursor
    · rcases List.mem_append.mp (hall.1.symm.subset hmem) with hfirst | hlater
      · rcases List.mem_append.mp hfirst with hrow | hrow
        · exact hlower.trans (hpage row hrow)
        · rwa [List.mem_singleton.mp hrow]
      · exact absurd (hrest.symm.subset hlater) hnot
    · exact hlower.trans (h.lower row hrow hmem c (hall.1.subset (by simp)))

/-- In a separated table, what a walk returns from a page on is what is past its cursor. -/
theorem Clean.flatten_perm {pages : List (List α)} (h : Clean key id rows size k cursor)
    (hseparated : Separated key rows size) (hwalk : Walk key id rows size cursor pages) :
    pages.flatten.Perm (rest key id rows cursor) := by
  -- By induction on the walk; every page ends with a key of its own, so the next one starts clean.
  induction hwalk generalizing k with
  | last hall hfew =>
    rw [List.flatten_singleton]
    exact hall.1
  | more hall hsize hmany hwalk ih =>
    obtain ⟨hnext, hrest⟩ := h.next hall hsize hmany (hseparated (k + 1))
    rw [List.flatten_cons]
    exact ((ih hnext).trans hrest |>.append_left _).trans hall.1

/-! ## Pages that end among equal keys -/

/-- While pages end with keys of their own, any number of them may be returned. -/
theorem exists_clean (id : α → ι) (hsize : 1 ≤ size) {k : ℕ}
    (hseparated : ∀ j ≤ k, SeparatedAt key rows size j) (hk : k * size < rows.length) :
    ∃ cursor before, Clean key id rows size k cursor ∧
      (List.flatten before ++ rest key id rows cursor).Perm rows ∧
      ∀ pages, Walk key id rows size cursor pages →
        Walk key id rows size none (before ++ pages) := by
  -- By induction on the number of pages; the next page is read in the order of ids.
  induction k with
  | zero => exact ⟨none, [], .start, by simp, fun _ hwalk => hwalk⟩
  | succ k ih =>
    have hprod : (k + 1) * size = k * size + size := Nat.add_one_mul k size
    obtain ⟨cursor, before, hclean, hperm, hwalks⟩ :=
      ih (fun j hj => hseparated j (by omega)) (by omega)
    obtain ⟨all, hall, hsorted⟩ := exists_byKeyAndId key id (rest key id rows cursor)
    have hlength := hall.length_eq
    have hrows := hclean.length_eq
    have hmany : size < all.length := by omega
    obtain ⟨page, c, tail, rfl, hpage, htail⟩ := exists_page hsize hmany
    have hnewest := newestFirst_of_byKeyAndId hall hsorted
    obtain ⟨hnext, hrest⟩ := hclean.next hnewest hpage htail (hseparated (k + 1) le_rfl)
    refine ⟨some c, before ++ [page ++ [c]], hnext, ?_, fun pages hwalk => ?_⟩
    · rw [List.flatten_append, List.flatten_singleton, List.append_assoc]
      exact ((hrest.append_left _).trans hall |>.append_left _).trans hperm
    · rw [List.append_assoc]
      exact hwalks _ (.more hnewest hpage htail hwalk)

/-- The first row a walk returns is the newest past its cursor. -/
theorem exists_newest {pages : List (List α)}
    (hwalk : Walk key id rows size cursor pages) (hne : rest key id rows cursor ≠ []) :
    ∃ first ∈ pages.flatten, ∀ row ∈ rest key id rows cursor, key row ≤ key first := by
  have hhead : ∀ {all : List α}, NewestFirst key (rest key id rows cursor) all →
      ∃ first, all.head? = some first ∧ ∀ row ∈ rest key id rows cursor, key row ≤ key first := by
    rintro all ⟨hperm, hsorted⟩
    cases all with
    | nil => exact absurd hperm.symm.eq_nil hne
    | cons first all =>
      refine ⟨first, rfl, fun row hrow => ?_⟩
      rcases List.mem_cons.mp (hperm.symm.subset hrow) with rfl | hrow
      · exact le_rfl
      · exact (List.pairwise_cons.mp hsorted).1 row hrow
  cases hwalk with
  | last hall hfew =>
    obtain ⟨first, hfirst, hnewest⟩ := hhead hall
    exact ⟨first, by simpa using List.mem_of_mem_head? hfirst, hnewest⟩
  | more hall _ _ _ =>
    obtain ⟨first, hfirst, hnewest⟩ := hhead hall
    refine ⟨first, ?_, hnewest⟩
    rw [List.head?_append_of_ne_nil _ (by simp)] at hfirst
    exact List.mem_flatten.mpr ⟨_, List.mem_cons_self, List.mem_of_mem_head? hfirst⟩

/-- If what is left after a page is returned and nothing else, the last row of the page has its
key alone among the rows past the cursor. -/
theorem ties_eq_one (hsize : 1 ≤ size) (hids : (rows.map id).Nodup)
    (hperm : (page ++ [c] ++ tail).Perm (rest key id rows cursor))
    (hsorted : (page ++ [c] ++ tail).Pairwise (ByKeyAndId key id))
    (hleft : ∀ pages, Walk key id rows size (some c) pages → pages.flatten.Perm tail) :
    ties key (rest key id rows cursor) c = 1 := by
  obtain ⟨pages, hwalk⟩ := exists_walk key id rows hsize (some c)
  have hreturned := hleft pages hwalk
  obtain ⟨hfirst, -, hlast⟩ := List.pairwise_append.mp hsorted
  obtain ⟨-, -, hbefore⟩ := List.pairwise_append.mp hfirst
  -- A tie that is left has a greater id, and is never returned.
  have htail : ∀ row ∈ tail, key row ≠ key c := by
    intro row hrow heq
    have hpast := (mem_rest.mp (mem_rest_of_walk hwalk (hreturned.symm.subset hrow))).2
    have hid := ((past_some.mp hpast).resolve_left heq.not_lt).2
    rcases hlast c (by simp) row hrow with hlt | ⟨-, hle⟩
    · exact heq.not_lt hlt
    · exact absurd hid (not_lt.mpr hle)
  -- A tie on the page has a smaller id, and is returned again.
  have hpage : ∀ row ∈ page, key row ≠ key c := by
    intro row hrow heq
    have hnodup : ((page ++ [c] ++ tail).map id).Nodup :=
      (hperm.map id).nodup_iff.mpr (hids.sublist (List.filter_sublist.map id))
    rw [List.map_append, List.map_append] at hnodup
    have hne : id row ≠ id c :=
      (List.nodup_append.mp (List.nodup_append.mp hnodup).1).2.2 _ (List.mem_map_of_mem hrow) _
        List.mem_cons_self
    have hid : id row < id c := by
      rcases hbefore row hrow c List.mem_cons_self with hlt | ⟨-, hle⟩
      · exact absurd hlt heq.not_gt
      · exact lt_of_le_of_ne hle hne
    have hagain : row ∈ rest key id rows (some c) :=
      mem_rest.mpr ⟨(mem_rest.mp (hperm.subset (by simp [hrow]))).1,
        past_some.mpr (.inr ⟨heq, hid⟩)⟩
    obtain ⟨first, hfirst, hnewest⟩ := exists_newest hwalk (List.ne_nil_of_mem hagain)
    have hpast := (mem_rest.mp (mem_rest_of_walk hwalk hfirst)).2
    have hle : key first ≤ key c := (past_some.mp hpast).elim le_of_lt fun h => h.1.le
    exact htail first (hreturned.subset hfirst) (hle.antisymm (heq ▸ hnewest row hagain))
  have hnone : ties key page c = 0 := countP_eq_zero hpage
  have hnone' : ties key tail c = 0 := countP_eq_zero htail
  have hself : ties key [c] c = 1 := by simp [ties]
  rw [← ties_perm hperm, ties_append, ties_append, hnone, hnone', hself]

/-- A row whose key is at the end of the page is past the cursor, and has the key of the last
row. -/
theorem Clean.key_eq (h : Clean key id rows size k cursor)
    (hall : NewestFirst key (rest key id rows cursor) (page ++ [c] ++ tail))
    (hsize : (page ++ [c]).length = size) {row : α} (hrow : row ∈ rows)
    (habove : above key rows row < (k + 1) * size)
    (hreach : (k + 1) * size ≤ above key rows row + ties key rows row) : key row = key c := by
  have hends := hall.ends
  have hprod : (k + 1) * size = k * size + size := Nat.add_one_mul k size
  rw [List.length_append, List.length_singleton] at hsize
  by_cases hmem : row ∈ rest key id rows cursor
  · obtain ⟨hless, hties⟩ := h.counts hmem
    rw [← above_perm hall.1, above_append, above_append] at hless
    rw [← ties_perm hall.1, ties_append, ties_append] at hties
    rcases lt_trichotomy (key row) (key c) with hlt | heq | hgt
    · -- The whole page is above the row.
      have hpage : above key page row = page.length :=
        List.countP_eq_length.mpr fun other hother =>
          decide_eq_true (hlt.trans_le (hends.higher other hother))
      have hself : above key [c] row = 1 := by simp [above, hlt]
      omega
    · exact heq
    · -- Neither the last row nor what is left is as high as the row.
      have hpage : above key page row + ties key page row ≤ page.length :=
        above_add_ties_le page row
      have hself : above key [c] row = 0 := above_eq_zero fun other hother => by
        rw [List.mem_singleton.mp hother]
        exact hgt.le
      have hself' : ties key [c] row = 0 := by simp [ties, hgt.ne]
      have htail : above key tail row = 0 := above_eq_zero fun other hother =>
        (hends.lower other hother).trans hgt.le
      have htail' : ties key tail row = 0 := countP_eq_zero fun other hother =>
        ((hends.lower other hother).trans_lt hgt).ne
      omega
  · -- The rows with at least its key have been returned before.
    have hnone : (rest key id rows cursor).countP (key row ≤ key ·) = 0 :=
      countP_eq_zero fun other hother => not_le.mpr (h.lower row hrow hmem other hother)
    have hreturned : (rows.filter fun other => !decide (Past key id cursor other)).countP
        (key row ≤ key ·) ≤ k * size := h.length_returned ▸ List.countP_le_length
    rw [above_add_ties, List.countP_eq_countP_filter_add rows _ (Past key id cursor ·)] at hreach
    unfold rest at hnone
    omega

/-- Every walk returns every row exactly once if and only if no page ends among equal keys. -/
theorem flatten_perm_iff (hsize : 1 ≤ size) (hids : (rows.map id).Nodup) :
    (∀ pages, Walk key id rows size none pages → pages.flatten.Perm rows) ↔
      Separated key rows size := by
  constructor
  · intro h k
    induction k using Nat.strong_induction_on with
    | _ k ih =>
      intro hk row hrow habove hreach
      obtain _ | k := k
      · simp at habove
      have hprod : (k + 1) * size = k * size + size := Nat.add_one_mul k size
      have hseparated : ∀ j ≤ k, SeparatedAt key rows size j := fun j hj => ih j (by omega)
      obtain ⟨cursor, before, hclean, hperm, hwalks⟩ :=
        exists_clean id hsize hseparated (by omega)
      obtain ⟨all, hall, hsorted⟩ := exists_byKeyAndId key id (rest key id rows cursor)
      have hlength := hall.length_eq
      have hrows := hclean.length_eq
      have hmany : size < all.length := by omega
      obtain ⟨page, c, tail, rfl, hpage, htail⟩ := exists_page hsize hmany
      have hnewest := newestFirst_of_byKeyAndId hall hsorted
      have hone : ties key (rest key id rows cursor) c = 1 := by
        refine ties_eq_one hsize hids hall hsorted fun pages hwalk => ?_
        have hreturned := h _ (hwalks _ (.more hnewest hpage htail hwalk))
        rw [List.flatten_append, List.flatten_cons] at hreturned
        have hrest := (List.perm_append_left_iff _).mp (hreturned.trans hperm.symm)
        exact (List.perm_append_left_iff _).mp (hrest.trans hall.symm)
      have hkey := hclean.key_eq hnewest hpage hrow habove hreach
      rw [ties, hkey, ← ties, (hclean.counts (hall.subset (by simp))).2]
      exact hone
  · intro hseparated pages hwalk
    have hreturned : pages.flatten.Perm (rest key id rows none) :=
      Clean.start.flatten_perm hseparated hwalk
    rwa [rest_none] at hreturned

end Logit.Pagination
