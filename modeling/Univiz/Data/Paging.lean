import Mathlib.Data.List.Perm.Subperm
import Mathlib.Data.List.Sort
import Mathlib.Tactic.Ring

namespace Univiz.Data

/-! Cursor-paged scans.

A table is read in pages of `limit` rows.  Each page continues strictly after
the key of the last row before it, so rows that share a key across a page
boundary are passed over.
-/

/-- No page boundary falls between two equal keys. -/
def BoundariesDistinct (limit : Nat) (keys : List κ) : Prop :=
  ∀ count shared, 0 < count → keys[count * limit]? = some shared →
    keys[count * limit - 1]? ≠ some shared

theorem boundariesDistinct_of_length_le {limit : Nat} {keys : List κ} (short : keys.length ≤ limit) :
    BoundariesDistinct limit keys := by
  intro count shared positive present
  have : limit ≤ count * limit := Nat.le_mul_of_pos_left limit positive
  rw [List.getElem?_eq_none (by omega)] at present
  cases present

theorem boundariesDistinct_drop_iff {limit : Nat} {keys : List κ} (positive : 0 < limit)
    (first : ∀ shared, keys[limit]? = some shared → keys[limit - 1]? ≠ some shared) :
    BoundariesDistinct limit keys ↔ BoundariesDistinct limit (keys.drop limit) := by
  have shift : ∀ count, limit + count * limit = (count + 1) * limit := fun count => by ring
  have shiftBefore : ∀ count, 0 < count →
      limit + (count * limit - 1) = (count + 1) * limit - 1 := fun count some => by
    have : limit ≤ count * limit := Nat.le_mul_of_pos_left limit some
    have := shift count
    omega
  constructor
  · intro distinct count shared some present
    rw [List.getElem?_drop] at present ⊢
    rw [shiftBefore count some]
    exact distinct (count + 1) shared (Nat.succ_pos _) (shift count ▸ present)
  · intro distinct count shared some present
    cases count with
    | zero => omega
    | succ count =>
        cases count with
        | zero =>
            rw [Nat.zero_add, Nat.one_mul] at present ⊢
            exact first shared present
        | succ count =>
            have later := distinct (count + 1) shared (Nat.succ_pos _)
            rw [List.getElem?_drop, List.getElem?_drop, shift,
              shiftBefore _ (Nat.succ_pos _)] at later
            exact later present

variable {α σ κ : Type} [LinearOrder κ] {key : α → κ} {rows : List α}

/-- The rows that a query with this cursor selects. -/
def isAfter (key : α → κ) (cursor : Option κ) (row : α) : Bool :=
  match cursor with
  | none => true
  | some last => decide (last < key row)

/-- A query that returns the rows after a cursor in key order.  Rows with equal
keys come in any order, and not in the same one every time. -/
structure PagedQuery (key : α → κ) (rows : List α) where
  answer : Option κ → List α
  perm : ∀ cursor, (answer cursor).Perm (rows.filter (isAfter key cursor))
  sorted : ∀ cursor, (answer cursor).Pairwise fun row next => key row ≤ key next

def sortedKeys (key : α → κ) (rows : List α) : List κ :=
  (rows.map key).mergeSort fun first second => decide (first ≤ second)

theorem sortedKeys_pairwise (key : α → κ) (rows : List α) :
    (sortedKeys key rows).Pairwise (· ≤ ·) := by
  have sorted : (sortedKeys key rows).Pairwise fun first second => decide (first ≤ second) = true :=
    List.pairwise_mergeSort
      (fun first second third lower upper => decide_eq_true
        ((of_decide_eq_true lower).trans (of_decide_eq_true upper)))
      (fun first second => by simpa using le_total first second) _
  simpa only [decide_eq_true_eq] using sorted

theorem isAfter_trans {cursor : Option κ} {last row : α} (lastAfter : isAfter key cursor last = true)
    (after : isAfter key (some (key last)) row = true) : isAfter key cursor row = true := by
  cases cursor with
  | none => rfl
  | some before =>
      simp only [isAfter, decide_eq_true_eq] at lastAfter after ⊢
      exact lastAfter.trans after

theorem filter_isAfter_narrow {cursor : Option κ} {last : α}
    (selected : last ∈ rows.filter (isAfter key cursor)) :
    (rows.filter (isAfter key cursor)).filter (isAfter key (some (key last))) =
      rows.filter (isAfter key (some (key last))) := by
  rw [List.filter_filter]
  refine List.filter_congr fun row _ => ?_
  rw [Bool.and_eq_left_iff_imp]
  exact isAfter_trans (List.mem_filter.mp selected).2

theorem length_filter_isAfter_lt {cursor : Option κ} {last : α}
    (selected : last ∈ rows.filter (isAfter key cursor)) :
    (rows.filter (isAfter key (some (key last)))).length <
      (rows.filter (isAfter key cursor)).length := by
  rw [← filter_isAfter_narrow selected, List.length_filter_lt_length_iff_exists]
  exact ⟨last, selected, by simp [isAfter]⟩

namespace PagedQuery

def page (query : PagedQuery key rows) (limit : Nat) (cursor : Option κ) : List α :=
  (query.answer cursor).take limit

theorem mem_of_getLast_page {query : PagedQuery key rows} {limit : Nat} {cursor : Option κ}
    {last : α} (found : (query.page limit cursor).getLast? = some last) :
    last ∈ rows.filter (isAfter key cursor) :=
  (query.perm cursor).subset (List.mem_of_mem_take (List.mem_of_getLast? found))

/-- The scan loop: fetch a page, stop if it is empty, process it, stop if it is
short, continue after its last row. -/
def scan (query : PagedQuery key rows) (limit : Nat) (process : σ → List α → σ) (state : σ)
    (cursor : Option κ) : σ :=
  match _ended : (query.page limit cursor).getLast? with
  | none => state
  | some last =>
      let processed := process state (query.page limit cursor)
      if (query.page limit cursor).length < limit then processed
      else query.scan limit process processed (some (key last))
termination_by (rows.filter (isAfter key cursor)).length
decreasing_by exact length_filter_isAfter_lt (mem_of_getLast_page _ended)

def pages (query : PagedQuery key rows) (limit : Nat) (cursor : Option κ) : List (List α) :=
  query.scan limit (fun pages page => pages ++ [page]) [] cursor

variable (query : PagedQuery key rows) {limit : Nat} {cursor : Option κ}

theorem scan_empty {process : σ → List α → σ} {state : σ}
    (ended : query.page limit cursor = []) : query.scan limit process state cursor = state := by
  rw [scan]
  split
  · rfl
  · rename_i found
    rw [ended] at found
    cases found

theorem scan_short {process : σ → List α → σ} {state : σ}
    (short : (query.page limit cursor).length < limit)
    (nonempty : query.page limit cursor ≠ []) :
    query.scan limit process state cursor = process state (query.page limit cursor) := by
  rw [scan]
  split
  · rename_i ended
    exact absurd (List.getLast?_eq_none_iff.mp ended) nonempty
  · simp only [if_pos short]

theorem scan_full {process : σ → List α → σ} {state : σ} {last : α}
    (full : limit ≤ (query.page limit cursor).length)
    (found : (query.page limit cursor).getLast? = some last) :
    query.scan limit process state cursor =
      query.scan limit process (process state (query.page limit cursor)) (some (key last)) := by
  rw [scan]
  split
  · rename_i ended
    rw [found] at ended
    cases ended
  · rename_i other same
    rw [found] at same
    cases same
    simp only [if_neg (Nat.not_lt.mpr full)]

theorem scan_induction (limit : Nat) {motive : Option κ → Prop}
    (empty : ∀ cursor, query.page limit cursor = [] → motive cursor)
    (short : ∀ cursor, (query.page limit cursor).length < limit →
      query.page limit cursor ≠ [] → motive cursor)
    (full : ∀ cursor last, limit ≤ (query.page limit cursor).length →
      (query.page limit cursor).getLast? = some last → motive (some (key last)) → motive cursor)
    (cursor : Option κ) : motive cursor := by
  generalize size : (rows.filter (isAfter key cursor)).length = count
  induction count using Nat.strongRecOn generalizing cursor with
  | ind count ih =>
      cases found : (query.page limit cursor).getLast? with
      | none => exact empty cursor (List.getLast?_eq_none_iff.mp found)
      | some last =>
          by_cases isShort : (query.page limit cursor).length < limit
          · refine short cursor isShort fun ended => ?_
            rw [ended] at found
            cases found
          · refine full cursor last (Nat.not_lt.mp isShort) found (ih _ ?_ _ rfl)
            exact size ▸ length_filter_isAfter_lt (mem_of_getLast_page found)

theorem foldl_scan_append (process : σ → List α → σ) (initial : σ) (done : List (List α)) :
    (query.scan limit (fun pages page => pages ++ [page]) done cursor).foldl process initial =
      query.scan limit process (done.foldl process initial) cursor := by
  induction cursor using query.scan_induction limit generalizing done with
  | empty cursor ended => rw [scan_empty query ended, scan_empty query ended]
  | short cursor isShort nonempty =>
      rw [scan_short query isShort nonempty, scan_short query isShort nonempty, List.foldl_append]
      rfl
  | full cursor last isFull found ih =>
      rw [scan_full query isFull found, scan_full query isFull found, ih, List.foldl_append]
      rfl

theorem scan_eq_foldl (process : σ → List α → σ) (state : σ) :
    query.scan limit process state cursor = (query.pages limit cursor).foldl process state :=
  (foldl_scan_append query process state []).symm

theorem scan_append_eq (done : List (List α)) :
    query.scan limit (fun pages page => pages ++ [page]) done cursor =
      done ++ query.pages limit cursor := by
  have collected : ∀ pages : List (List α),
      pages.foldl (fun pages page => pages ++ [page]) done = done ++ pages := by
    intro pages
    induction pages generalizing done with
    | nil => simp
    | cons page rest ih => simp [ih]
  rw [scan_eq_foldl, collected]

theorem pages_empty (ended : query.page limit cursor = []) : query.pages limit cursor = [] :=
  scan_empty query ended

theorem pages_short (short : (query.page limit cursor).length < limit)
    (nonempty : query.page limit cursor ≠ []) :
    query.pages limit cursor = [query.page limit cursor] :=
  scan_short query short nonempty

theorem pages_full {last : α} (full : limit ≤ (query.page limit cursor).length)
    (found : (query.page limit cursor).getLast? = some last) :
    query.pages limit cursor =
      query.page limit cursor :: query.pages limit (some (key last)) := by
  rw [pages, scan_full query full found, scan_append_eq]
  rfl

theorem isAfter_of_mem_pages {row : α} (member : row ∈ (query.pages limit cursor).flatten) :
    row ∈ rows.filter (isAfter key cursor) := by
  have ofPage : ∀ cursor, row ∈ query.page limit cursor → row ∈ rows.filter (isAfter key cursor) :=
    fun cursor inPage => (query.perm cursor).subset (List.mem_of_mem_take inPage)
  induction cursor using query.scan_induction limit with
  | empty cursor ended =>
      rw [pages_empty query ended] at member
      cases member
  | short cursor isShort nonempty =>
      rw [pages_short query isShort nonempty, List.flatten_singleton] at member
      exact ofPage cursor member
  | full cursor last isFull found ih =>
      rw [pages_full query isFull found, List.flatten_cons] at member
      rcases List.mem_append.mp member with inPage | later
      · exact ofPage cursor inPage
      · obtain ⟨inRows, after⟩ := List.mem_filter.mp (ih later)
        exact List.mem_filter.mpr
          ⟨inRows, isAfter_trans (List.mem_filter.mp (mem_of_getLast_page found)).2 after⟩

theorem drop_perm_answer {last : α} (full : limit ≤ (query.page limit cursor).length)
    (found : (query.page limit cursor).getLast? = some last)
    (untied : ∀ next, (query.answer cursor)[limit]? = some next → key next ≠ key last) :
    ((query.answer cursor).drop limit).Perm (query.answer (some (key last))) := by
  have sorted := query.sorted cursor
  have split := List.take_append_drop limit (query.answer cursor)
  rw [← split] at sorted
  obtain ⟨takeSorted, dropSorted, across⟩ := List.pairwise_append.mp sorted
  have lastMem : last ∈ (query.answer cursor).take limit := List.mem_of_getLast? found
  have takeBelow : ∀ row ∈ (query.answer cursor).take limit, key row ≤ key last := by
    obtain ⟨before, whole⟩ := List.getLast?_eq_some_iff.mp found
    rw [page] at whole
    rw [whole] at takeSorted ⊢
    intro row member
    rcases List.mem_append.mp member with earlier | atEnd
    · exact (List.pairwise_append.mp takeSorted).2.2 row earlier last List.mem_cons_self
    · rw [List.mem_singleton.mp atEnd]
  have dropAbove : ∀ row ∈ (query.answer cursor).drop limit, key last < key row := by
    cases rest : (query.answer cursor).drop limit with
    | nil => simp
    | cons next tail =>
        have head : (query.answer cursor)[limit]? = some next := by
          have := congrArg (·[0]?) rest
          simpa using this
        rw [rest] at dropSorted across
        have nextAbove : key last < key next :=
          lt_of_le_of_ne (across last lastMem next List.mem_cons_self) (untied next head).symm
        intro row member
        rcases List.mem_cons.mp member with same | later
        · exact same ▸ nextAbove
        · exact nextAbove.trans_le ((List.pairwise_cons.mp dropSorted).1 row later)
  have selected : (query.answer cursor).filter (isAfter key (some (key last))) =
      (query.answer cursor).drop limit := by
    rw [← split, List.filter_append, List.drop_left' ?length]
    case length =>
      have := List.length_take_le limit (query.answer cursor)
      exact Nat.le_antisymm this full
    have none : ((query.answer cursor).take limit).filter (isAfter key (some (key last))) = [] :=
      List.filter_eq_nil_iff.mpr fun row member => by simpa [isAfter] using takeBelow row member
    have all : ((query.answer cursor).drop limit).filter (isAfter key (some (key last))) =
        (query.answer cursor).drop limit :=
      List.filter_eq_self.mpr fun row member => by simpa [isAfter] using dropAbove row member
    rw [none, all, List.nil_append]
  rw [← selected]
  refine ((query.perm cursor).filter _).trans ?_
  rw [filter_isAfter_narrow (mem_of_getLast_page found)]
  exact (query.perm _).symm

theorem page_of_short (short : (query.page limit cursor).length < limit) :
    query.page limit cursor = query.answer cursor := by
  rw [page, List.length_take] at short
  exact List.take_of_length_le (by omega)

/-- A short page is the rest of the rows. -/
theorem exhausted_of_short {last : α} (short : (query.page limit cursor).length < limit)
    (found : (query.page limit cursor).getLast? = some last) :
    ∀ row ∈ rows, isAfter key (some (key last)) row = false := by
  have whole := query.page_of_short short
  intro row member
  by_contra after
  have after := eq_true_of_ne_false after
  have selected := isAfter_trans (List.mem_filter.mp (mem_of_getLast_page found)).2 after
  have answered := (query.perm cursor).mem_iff.mpr (List.mem_filter.mpr ⟨member, selected⟩)
  have sorted := query.sorted cursor
  obtain ⟨before, ends⟩ := List.getLast?_eq_some_iff.mp found
  rw [← whole, ends] at answered sorted
  simp only [isAfter, decide_eq_true_eq] at after
  rcases List.mem_append.mp answered with earlier | atEnd
  · have below := (List.pairwise_append.mp sorted).2.2 row earlier last List.mem_cons_self
    exact absurd after (not_lt.mpr below)
  · rw [List.mem_singleton.mp atEnd] at after
    exact lt_irrefl _ after

/-- The number of rows that a cursor has passed. -/
def passed (key : α → κ) (rows : List α) (cursor : Option κ) : Nat :=
  rows.countP fun row => !isAfter key cursor row

theorem passed_add_answer : passed key rows cursor + (query.answer cursor).length = rows.length := by
  have whole : rows.length = rows.countP (isAfter key cursor) +
      rows.countP fun row => ¬ isAfter key cursor row := List.length_eq_countP_add_countP _
  have same : (rows.countP fun row => ¬ isAfter key cursor row) = passed key rows cursor :=
    List.countP_congr fun row _ => by simp
  rw [(query.perm cursor).length_eq, ← List.countP_eq_length_filter, whole, same, Nat.add_comm]

/-- A page that does not end between equal keys takes the cursor on by its length. -/
theorem passed_page {last : α} (found : (query.page limit cursor).getLast? = some last)
    (untied : ∀ next, (query.answer cursor)[limit]? = some next → key next ≠ key last) :
    passed key rows (some (key last)) =
      passed key rows cursor + (query.page limit cursor).length := by
  have before : passed key rows cursor + (query.answer cursor).length = rows.length :=
    query.passed_add_answer
  by_cases short : (query.page limit cursor).length < limit
  · have all : passed key rows (some (key last)) = rows.length := by
      refine List.countP_eq_length.mpr fun row member => ?_
      rw [query.exhausted_of_short short found row member, Bool.not_false]
    rw [all, query.page_of_short short, before]
  · have after : passed key rows (some (key last)) + (query.answer (some (key last))).length =
      rows.length := query.passed_add_answer
    have full := Nat.not_lt.mp short
    have rest := (query.drop_perm_answer full found untied).length_eq
    rw [List.length_drop] at rest
    have cut : (query.page limit cursor).length = min limit (query.answer cursor).length :=
      List.length_take
    omega

theorem map_answer_eq {last : α} (sorted : ((query.answer cursor).drop limit).Perm
      (query.answer (some (key last)))) :
    (query.answer (some (key last))).map key = ((query.answer cursor).map key).drop limit := by
  rw [← List.map_drop]
  have after : ((query.answer (some (key last))).map key).Pairwise (· ≤ ·) :=
    List.pairwise_map.mpr (query.sorted _)
  have rest : (((query.answer cursor).drop limit).map key).Pairwise (· ≤ ·) :=
    List.pairwise_map.mpr (query.sorted cursor).drop
  exact (sorted.symm.map key).eq_of_pairwise' after rest

/-- A scan processes every selected row exactly once if and only if no page
boundary falls between equal keys. -/
theorem pages_perm_iff (positive : 0 < limit) (cursor : Option κ) :
    (query.pages limit cursor).flatten.Perm (query.answer cursor) ↔
      BoundariesDistinct limit ((query.answer cursor).map key) := by
  induction cursor using query.scan_induction limit with
  | empty cursor ended =>
      have nothing : query.answer cursor = [] := by
        exact (List.take_eq_nil_iff.mp ended).resolve_left (Nat.ne_of_gt positive)
      rw [pages_empty query ended, nothing]
      exact iff_of_true .rfl (boundariesDistinct_of_length_le (Nat.zero_le _))
  | short cursor isShort nonempty =>
      have whole := query.page_of_short isShort
      rw [pages_short query isShort nonempty, List.flatten_singleton, whole]
      refine iff_of_true .rfl (boundariesDistinct_of_length_le ?_)
      rw [List.length_map, ← whole]
      omega
  | full cursor last isFull found ih =>
      have boundary : ((query.answer cursor).map key)[limit - 1]? = some (key last) := by
        have length : (query.page limit cursor).length = limit :=
          Nat.le_antisymm (List.length_take_le _ _) isFull
        rw [List.getLast?_eq_getElem?, length, page, List.getElem?_take_of_lt (by omega)] at found
        rw [List.getElem?_map, found, Option.map_some]
      rw [pages_full query isFull found, List.flatten_cons, page]
      nth_rewrite 2 [← List.take_append_drop limit (query.answer cursor)]
      rw [List.perm_append_left_iff]
      by_cases tied : ∃ next, (query.answer cursor)[limit]? = some next ∧ key next = key last
      · obtain ⟨next, present, same⟩ := tied
        refine iff_of_false (fun perm => ?_) (fun distinct => ?_)
        · have dropped : next ∈ (query.answer cursor).drop limit := by
            refine List.mem_iff_getElem?.mpr ⟨0, ?_⟩
            rw [List.getElem?_drop, Nat.add_zero, present]
          have later := (List.mem_filter.mp (query.isAfter_of_mem_pages (perm.mem_iff.mpr dropped))).2
          simp [isAfter, same] at later
        · refine distinct 1 (key last) Nat.one_pos ?_ ?_
          · rw [Nat.one_mul, List.getElem?_map, present, Option.map_some, same]
          · rw [Nat.one_mul, boundary]
      · have untied : ∀ next, (query.answer cursor)[limit]? = some next → key next ≠ key last :=
          fun next present same => tied ⟨next, present, same⟩
        have perm := query.drop_perm_answer isFull found untied
        rw [perm.congr_right, ih, query.map_answer_eq perm, ← boundariesDistinct_drop_iff positive]
        intro shared present first
        rw [boundary] at first
        cases first
        rw [List.getElem?_map, Option.map_eq_some_iff] at present
        obtain ⟨next, present, same⟩ := present
        exact untied next present same

theorem answer_none_perm : (query.answer none).Perm rows := by
  have all : rows.filter (isAfter key none) = rows := List.filter_eq_self.mpr fun _ _ => rfl
  simpa only [all] using query.perm none

theorem map_answer_none : (query.answer none).map key = sortedKeys key rows := by
  have answered : ((query.answer none).map key).Pairwise (· ≤ ·) :=
    List.pairwise_map.mpr (query.sorted none)
  exact ((query.answer_none_perm.map key).trans (List.mergeSort_perm _ _).symm).eq_of_pairwise'
    answered (sortedKeys_pairwise key rows)

/-- A scan from the start processes every row exactly once if and only if no
page boundary falls between equal keys. -/
theorem pages_perm_rows_iff (positive : 0 < limit) :
    (query.pages limit none).flatten.Perm rows ↔
      BoundariesDistinct limit (sortedKeys key rows) := by
  rw [← map_answer_none query, ← pages_perm_iff query positive]
  exact (query.answer_none_perm.congr_right _).symm

theorem pairwise_of_isChain {rows : List α}
    (chain : rows.IsChain fun row next => key row ≤ key next) :
    rows.Pairwise fun row next => key row ≤ key next := by
  have transitive : IsTrans α fun row next => key row ≤ key next :=
    ⟨fun _ _ _ lower upper => lower.trans upper⟩
  exact List.isChain_iff_pairwise.mp chain

/-- The query of a table that is kept in key order. -/
def ofSorted (rows : List α) (ordered : rows.Pairwise fun row next => key row ≤ key next) :
    PagedQuery key rows where
  answer cursor := rows.filter (isAfter key cursor)
  perm _ := .rfl
  sorted _ := ordered.filter _

end PagedQuery

/-! The first rows after a cursor may come in any order, and the cursor goes on from the row that comes
last.  Rows that share their key with no other are listed all the same. -/

/-- A page, and the order in which its rows were selected. -/
structure IsPage (key : α → κ) (rows : List α) (limit : Nat) (cursor : Option κ)
    (order page : List α) : Prop where
  perm : order.Perm (rows.filter (isAfter key cursor))
  sorted : order.Pairwise fun row next => key row ≤ key next
  page : page.Perm (order.take limit)

instance [DecidableEq α] (key : α → κ) (rows : List α) (limit : Nat) (cursor : Option κ)
    (order page : List α) : Decidable (IsPage key rows limit cursor order page) :=
  decidable_of_iff
    (order.Perm (rows.filter (isAfter key cursor)) ∧
      order.Pairwise (fun row next => key row ≤ key next) ∧ page.Perm (order.take limit))
    ⟨fun parts => ⟨parts.1, parts.2.1, parts.2.2⟩,
      fun isPage => ⟨isPage.perm, isPage.sorted, isPage.page⟩⟩

def Alone (key : α → κ) (rows : List α) (row : α) : Prop :=
  rows.countP (fun other => key other = key row) = 1

/-- The rows up to the cursor are listed. -/
def Covers (key : α → κ) (rows : List α) (listed : α → Prop) (cursor : Option κ) : Prop :=
  ∀ row ∈ rows, isAfter key cursor row = false → Alone key rows row → listed row

section Shuffled

variable {limit : Nat} {cursor : Option κ} {order page : List α} {listed later : α → Prop}
  {row last : α}

theorem IsPage.mem_rows (isPage : IsPage key rows limit cursor order page) (member : row ∈ page) :
    row ∈ rows :=
  (List.mem_filter.mp (isPage.perm.subset
    (List.mem_of_mem_take (isPage.page.subset member)))).1

/-- A row that a full page leaves out comes after those on it. -/
theorem IsPage.left_out (isPage : IsPage key rows limit cursor order page) (member : row ∈ rows)
    (alone : Alone key rows row) (after : isAfter key cursor row = true) (absent : row ∉ page)
    (listed : last ∈ page) : key last < key row := by
  have selected : row ∈ order := isPage.perm.symm.subset (List.mem_filter.mpr ⟨member, after⟩)
  have split := List.take_append_drop limit order
  have dropped : row ∈ order.drop limit := by
    rw [← split] at selected
    exact (List.mem_append.mp selected).resolve_left fun taken =>
      absent (isPage.page.symm.subset taken)
  have taken : last ∈ order.take limit := isPage.page.subset listed
  have sorted := isPage.sorted
  rw [← split] at sorted
  refine lt_of_le_of_ne ((List.pairwise_append.mp sorted).2.2 last taken row dropped) ?_
  intro same
  -- both rows are among those with the key, one on the page and one behind it
  have onPage : 0 < (order.take limit).countP fun other => key other = key row :=
    List.countP_pos_iff.mpr ⟨last, taken, decide_eq_true same⟩
  have behind : 0 < (order.drop limit).countP fun other => key other = key row :=
    List.countP_pos_iff.mpr ⟨row, dropped, decide_eq_true rfl⟩
  have total : order.countP (fun other => key other = key row) ≤ 1 := by
    rw [isPage.perm.countP_eq, ← alone]
    exact List.filter_sublist.countP_le
  rw [← split, List.countP_append] at total
  omega

theorem Covers.full (covers : Covers key rows listed cursor)
    (isPage : IsPage key rows limit cursor order page) (member : last ∈ page)
    (keeps : ∀ row, listed row → later row) (lists : ∀ row ∈ page, later row) :
    Covers key rows later (some (key last)) := by
  intro row inside passed alone
  by_cases after : isAfter key cursor row = true
  · by_contra missing
    have less := isPage.left_out inside alone after (fun there => missing (lists row there)) member
    rw [isAfter, decide_eq_false_iff_not] at passed
    exact passed less
  · exact keeps row (covers row inside (Bool.eq_false_iff.mpr after) alone)

theorem Covers.short (covers : Covers key rows listed cursor)
    (isPage : IsPage key rows limit cursor order page) (few : page.length < limit)
    (keeps : ∀ row, listed row → later row) (lists : ∀ row ∈ page, later row) :
    ∀ row ∈ rows, Alone key rows row → later row := by
  intro row inside alone
  by_cases after : isAfter key cursor row = true
  · have whole : order.take limit = order := by
      have length := isPage.page.length_eq
      rw [List.length_take] at length
      exact List.take_of_length_le (by omega)
    have selected : row ∈ order := isPage.perm.symm.subset (List.mem_filter.mpr ⟨inside, after⟩)
    exact lists row (isPage.page.symm.subset (whole.symm ▸ selected))
  · exact keeps row (covers row inside (Bool.eq_false_iff.mpr after) alone)

theorem Covers.mono (covers : Covers key rows listed cursor)
    (keeps : ∀ row, listed row → later row) : Covers key rows later cursor :=
  fun row inside passed alone => keeps row (covers row inside passed alone)

theorem covers_none : Covers key rows listed none := fun _ _ passed => by cases passed

end Shuffled

/-! Rows of a query that has a limit. -/

section Cut

variable {α : Type*} {limit : Nat} {matching returned : List α}

/-- The matching rows in some order, cut at the limit. -/
def CutAt (limit : Nat) (matching returned : List α) : Prop :=
  ∃ ordered : List α, ordered.Perm matching ∧ returned = ordered.take limit

theorem cutAt_take (limit : Nat) (matching : List α) :
    CutAt limit matching (matching.take limit) :=
  ⟨matching, List.Perm.refl matching, rfl⟩

namespace CutAt

theorem subset (cut : CutAt limit matching returned) : returned ⊆ matching := by
  obtain ⟨ordered, perm, rfl⟩ := cut
  exact fun row member => perm.subset (List.mem_of_mem_take member)

theorem length_le (cut : CutAt limit matching returned) : returned.length ≤ limit := by
  obtain ⟨ordered, perm, rfl⟩ := cut
  exact List.length_take_le limit ordered

theorem length_eq (cut : CutAt limit matching returned) :
    returned.length = min limit matching.length := by
  obtain ⟨ordered, perm, rfl⟩ := cut
  rw [List.length_take, perm.length_eq]

theorem nodup (cut : CutAt limit matching returned) (distinct : matching.Nodup) :
    returned.Nodup := by
  obtain ⟨ordered, perm, rfl⟩ := cut
  exact (perm.nodup_iff.mpr distinct).sublist (List.take_sublist limit ordered)

theorem mem_iff (cut : CutAt limit matching returned) (fits : matching.length ≤ limit)
    (row : α) : row ∈ returned ↔ row ∈ matching := by
  obtain ⟨ordered, perm, rfl⟩ := cut
  rw [List.take_of_length_le (perm.length_eq ▸ fits)]
  exact perm.mem_iff

theorem withholds (cut : CutAt limit matching returned) (distinct : matching.Nodup)
    (more : limit < matching.length) : ∃ row ∈ matching, row ∉ returned := by
  by_contra whole
  have all : matching ⊆ returned := by
    intro row member
    by_contra withheld
    exact whole ⟨row, member, withheld⟩
  have bound := (distinct.subperm all).length_le
  have short := cut.length_le
  omega

end CutAt

end Cut

end Univiz.Data
