import Mathlib.Data.List.TakeWhile
import SingleTable.Proofs.Store.Log
import SingleTable.Store.Paging

/-!
# Reading a fixed listing page by page

The rows that a read goes over are a fixed list.  The store may cut it into pages as it likes, as
long as a page has a row when there is one left.  Whatever ends the loop over the pages, the rows
evaluated so far and those behind the cursor are together the rows there were
(`Paging.continueFrom_reaches`).
-/

namespace SingleTable

/-- A row: its key, the item that a page has for it, and whether the filter passes it. -/
structure Row where
  key : Item
  item : Item
  passes : Bool

def Row.found (rows : List Row) : List Item := (rows.filter (·.passes)).map (·.item)

theorem Row.found_append (rows others : List Row) :
    found (rows ++ others) = found rows ++ found others := by
  simp [found]

theorem Row.length_found_le (rows : List Row) : (found rows).length ≤ rows.length := by
  simpa [found] using List.length_filter_le _ rows

/-- The rows that a read goes over, in the order of the store. -/
structure Listing where
  rows : List Row
  nodup : (rows.map (·.key)).Nodup

namespace Listing

variable {listing : Listing}

/-- The rows behind a cursor; without one, all of them. -/
def behind (listing : Listing) : Option Item → List Row
  | none => listing.rows
  | some key => (listing.rows.dropWhile (·.key ≠ key)).tail

/-- A cursor is the key of a row. -/
def Knows (listing : Listing) (cursor : Option Item) : Prop :=
  ∀ key ∈ cursor, key ∈ listing.rows.map (·.key)

/-- The rows that are still to be read by one who was given a cursor: without one, none. -/
def unread (listing : Listing) (cursor : Option Item) : List Row :=
  if cursor = none then [] else listing.behind cursor

/-- The rows evaluated from a cursor on, when the store gives the next cursor: that of the last of
them, or none when no row is left. -/
def Evaluates (listing : Listing) (cursor : Option Item) (evaluated : List Row)
    (next : Option Item) : Prop :=
  ∃ later, listing.behind cursor = evaluated ++ later ∧
    (next = none ∧ later = [] ∨ ∃ last ∈ evaluated.getLast?, next = some last.key)

/-- A page is some of the next rows: at most as many as asked for, and at least one unless none is
left.  It has the items of those that the filter passes. -/
def Offers (listing : Listing) (cursor : Option Item) (size : Nat) (page : Page) : Prop :=
  ∃ evaluated, listing.Evaluates cursor evaluated page.next ∧ evaluated.length ≤ size ∧
    page.items = Row.found evaluated

theorem behind_of_split {before later : List Row} {row : Row}
    (split : listing.rows = before ++ row :: later) : listing.behind (some row.key) = later := by
  have apart := listing.nodup
  rw [split, List.map_append, List.map_cons] at apart
  have absent : row.key ∉ before.map (·.key) := fun isMember =>
    (List.nodup_append.1 apart).2.2 _ isMember _ List.mem_cons_self rfl
  have passed : ∀ other ∈ before, decide (other.key ≠ row.key) = true := fun other isMember =>
    decide_eq_true fun same => absent (List.mem_map.2 ⟨other, isMember, same⟩)
  rw [behind, split, List.dropWhile_append_of_pos passed, List.dropWhile_cons_of_neg (by simp),
    List.tail_cons]

/-- The rows behind a known cursor are the end of all rows. -/
theorem exists_before {cursor : Option Item} (known : listing.Knows cursor) :
    ∃ before, listing.rows = before ++ listing.behind cursor := by
  cases cursor with
  | none => exact ⟨[], rfl⟩
  | some key =>
    obtain ⟨row, isRow, rfl⟩ := List.mem_map.1 (known key rfl)
    obtain ⟨before, later, split⟩ := List.append_of_mem isRow
    exact ⟨before ++ [row], by rw [behind_of_split split, split]; simp⟩

/-- The cursor that the store gives is known, and stands right behind what was evaluated. -/
theorem Evaluates.next {cursor next : Option Item} {evaluated : List Row}
    (known : listing.Knows cursor) (evaluates : listing.Evaluates cursor evaluated next) :
    listing.Knows next ∧ listing.behind cursor = evaluated ++ listing.unread next := by
  obtain ⟨later, split, ⟨rfl, rfl⟩ | ⟨last, isLast, rfl⟩⟩ := evaluates
  · exact ⟨by simp [Knows], by simpa [unread] using split⟩
  · obtain ⟨earlier, rfl⟩ := List.getLast?_eq_some_iff.1 isLast
    obtain ⟨before, all⟩ := exists_before known
    have here : listing.rows = (before ++ earlier) ++ last :: later := by
      rw [all, split]
      simp
    constructor
    · intro key isKey
      obtain rfl := Option.mem_some.1 isKey
      exact List.mem_map.2 ⟨last, by simp [here], rfl⟩
    · rw [split, unread, if_neg (by simp), behind_of_split here]

theorem Evaluates.eq_none {cursor next : Option Item}
    (evaluates : listing.Evaluates cursor [] next) : next = none := by
  obtain ⟨later, -, ⟨rfl, -⟩ | ⟨last, isLast, -⟩⟩ := evaluates
  · rfl
  · cases isLast

/-- The number of pages that can still come for one who was given a cursor. -/
def pagesLeft (listing : Listing) (cursor : Option Item) : Nat :=
  if cursor = none then 0 else (listing.behind cursor).length + 1

/-- A page takes away one of those that can still come. -/
theorem Evaluates.pagesLeft_le {cursor next : Option Item} {evaluated : List Row}
    (known : listing.Knows cursor) (evaluates : listing.Evaluates cursor evaluated next) :
    listing.pagesLeft next ≤ (listing.behind cursor).length := by
  obtain ⟨-, split⟩ := evaluates.next known
  by_cases atEnd : next = none
  · simp [pagesLeft, atEnd]
  · have someRow : evaluated ≠ [] := by
      rintro rfl
      exact atEnd evaluates.eq_none
    have positive := List.length_pos_iff.2 someRow
    rw [split, List.length_append, pagesLeft, unread, if_neg atEnd, if_neg atEnd]
    omega

/-! ## A store -/

def page (listing : Listing) (cursor : Option Item) (rows : Nat) : Page :=
  let evaluated := (listing.behind cursor).take rows
  { items := Row.found evaluated
    next := if (listing.behind cursor).length ≤ rows then none else evaluated.getLast?.map (·.key)
    scanned := .ofNat evaluated.length }

theorem offers_page {cursor : Option Item} {rows size : Nat} (someRow : 1 ≤ rows)
    (fits : rows ≤ size) : listing.Offers cursor size (listing.page cursor rows) := by
  refine ⟨(listing.behind cursor).take rows, ⟨(listing.behind cursor).drop rows,
    (List.take_append_drop rows _).symm, ?_⟩, ?_, rfl⟩
  · by_cases isLast : (listing.behind cursor).length ≤ rows
    · exact .inl ⟨if_pos isLast, List.drop_eq_nil_of_le isLast⟩
    · have nonempty : (listing.behind cursor).take rows ≠ [] := by
        rw [← List.length_pos_iff, List.length_take]
        omega
      refine .inr ⟨_, List.getLast?_eq_some_getLast nonempty, ?_⟩
      simp only [page, if_neg isLast, List.getLast?_eq_some_getLast nonempty, Option.map_some]
  · rw [List.length_take]
    omega

/-- A store that has nothing but a listing and cuts it into pages as it is told: the number of its
state picks the size of the next page, which is neither empty nor larger than asked for. -/
def store (listing : Listing) (cut : Nat → Nat) : Store Nat := fun call number =>
  match call with
  | .query request =>
    (.ok (listing.page request.start (max 1 (min (cut number) (request.limit.getD 1)))), number + 1)
  | .scan request =>
    (.ok (listing.page request.start (max 1 (min (cut number) (request.limit.getD 1)))), number + 1)
  | _ => (.error (.missingTable "*"), number)

/-! ## The loop over pages -/

/-- A store answers each fetch from a known cursor with a page of a listing, in whatever state it
is. -/
def IsServed {σ : Type} (listing : Listing) (store : Store σ)
    (fetch : Option Item → Nat → Operation Page) : Prop :=
  ∀ state cursor size, listing.Knows cursor → 1 ≤ size → ∃ page,
    ((fetch cursor size).run.run store state).1 = .ok page ∧ listing.Offers cursor size page

section Fetching

variable {σ : Type} (listing : Listing) (store : Store σ) (fetch : Option Item → Nat → Operation Page)

/-- When a store answers a fetch from a known cursor at all, then with a page of a listing. -/
def IsOffered : Prop :=
  ∀ state cursor size page, listing.Knows cursor → 1 ≤ size →
    ((fetch cursor size).run.run store state).1 = .ok page → listing.Offers cursor size page

def Refuses (error : Error) : Prop :=
  ∃ state cursor size, listing.Knows cursor ∧ 1 ≤ size ∧
    ((fetch cursor size).run.run store state).1 = .error error

variable {listing store fetch}

theorem IsServed.isOffered (served : listing.IsServed store fetch) :
    listing.IsOffered store fetch := by
  intro state cursor size page known someItem answered
  obtain ⟨other, answered', offers⟩ := served state cursor size known someItem
  obtain rfl := Except.ok.inj (answered.symm.trans answered')
  exact offers

theorem IsServed.not_refuses (served : listing.IsServed store fetch) (error : Error) :
    ¬ listing.Refuses store fetch error := by
  rintro ⟨state, cursor, size, known, someItem, refused⟩
  obtain ⟨page, answered, -⟩ := served state cursor size known someItem
  cases refused.symm.trans answered

end Fetching

/-- Out of some unread rows and some pages that could come, a read has gone on to where it ends: the
items it added are those that pass among the rows before its cursor. -/
structure Advances (listing : Listing) (unread : List Row) (pages : Nat) (start final : Progress)
    (log : List Exchange) : Prop where
  known : listing.Knows final.cursor
  items : ∃ evaluated, unread = evaluated ++ listing.unread final.cursor ∧
    final.items = start.items ++ Row.found evaluated
  calls : log.length + listing.pagesLeft final.cursor ≤ pages

/-- How a read comes to its end: it has gone on to where it stops, or a fetch failed. -/
inductive Reaches {σ : Type} (listing : Listing) (store : Store σ)
    (fetch : Option Item → Nat → Operation Page) (unread : List Row) (pages : Nat) (start : Progress)
    (log : List Exchange) : Except Error Progress → Prop where
  | stops {final : Progress} (advances : listing.Advances unread pages start final log) :
      Reaches listing store fetch unread pages start log (.ok final)
  | fails {error : Error} (refuses : listing.Refuses store fetch error) :
      Reaches listing store fetch unread pages start log (.error error)

/-- A page before what follows it. -/
theorem Evaluates.advances {cursor next : Option Item} {evaluated : List Row}
    {start middle final : Progress} {exchange : Exchange} {log : List Exchange}
    (known : listing.Knows cursor) (evaluates : listing.Evaluates cursor evaluated next)
    (items_eq : middle.items = start.items ++ Row.found evaluated)
    (others : listing.Advances (listing.unread next) (listing.pagesLeft next) middle final log) :
    listing.Advances (listing.behind cursor) ((listing.behind cursor).length + 1) start final
      (exchange :: log) := by
  obtain ⟨knownFinal, ⟨later, unread_eq, final_eq⟩, calls⟩ := others
  have pages_le := evaluates.pagesLeft_le known
  refine ⟨knownFinal, ⟨evaluated ++ later, ?_, ?_⟩, ?_⟩
  · rw [(evaluates.next known).2, unread_eq, List.append_assoc]
  · rw [final_eq, items_eq, Row.found_append, List.append_assoc]
  · rw [List.length_cons]
    omega

/-- A page before what follows it, however that ends. -/
theorem Evaluates.reaches {σ : Type} {store : Store σ} {fetch : Option Item → Nat → Operation Page}
    {cursor next : Option Item} {evaluated : List Row} {start middle : Progress} {exchange : Exchange}
    {log : List Exchange} {result : Except Error Progress}
    (known : listing.Knows cursor) (evaluates : listing.Evaluates cursor evaluated next)
    (items_eq : middle.items = start.items ++ Row.found evaluated)
    (others : listing.Reaches store fetch (listing.unread next) (listing.pagesLeft next) middle log
      result) :
    listing.Reaches store fetch (listing.behind cursor) ((listing.behind cursor).length + 1) start
      (exchange :: log) result := by
  cases others with
  | stops advances => exact .stops (evaluates.advances known items_eq advances)
  | fails refuses => exact .fails refuses

end Listing

namespace Paging

variable {σ : Type} {store : Store σ} {listing : Listing} {paging : Paging}
  {fetch : Option Item → Nat → Operation Page} {progress : Progress}

/-- A page that is asked for fits into what is still wanted, so that no item of it is dropped. -/
theorem items_add {page : Page} {evaluated : List Row} (keep : paging.keep = true)
    (isShort : evaluated.length ≤ progress.pageSize paging.limit)
    (items_eq : page.items = Row.found evaluated) :
    (progress.add paging.limit paging.keep page).items = progress.items ++ Row.found evaluated := by
  have fits : page.items.length ≤ progress.remaining paging.limit := by
    have found_le := Row.length_found_le evaluated
    unfold Progress.pageSize at isShort
    rw [items_eq]
    omega
  simp only [Progress.add, keep, if_true, List.take_of_length_le fits]
  rw [items_eq]

/-- A fetch is one call of the store. -/
def AsksOnce (fetch : Option Item → Nat → Operation Page) : Prop :=
  ∀ {σ : Type} (store : Store σ) cursor size state, ∃ exchange,
    (fetch cursor size).run.trace store state = [exchange]

section Offered

variable (asks : AsksOnce fetch) (offered : listing.IsOffered store fetch) (keep : paging.keep = true)
include asks offered keep

/-- A read that is not finished asks for a page, and fails with the fetch or goes on from there. -/
theorem exists_fetch (known : listing.Knows progress.cursor)
    (unfinished : progress.isFinished paging.limit paging.effort = false) (state : σ) :
    ∃ exchange middle,
      (∃ error, listing.Refuses store fetch error ∧ ∀ bound,
        (paging.continueFrom fetch (bound + 1) progress).Yields store state [exchange] (.error error)
          middle) ∨
      ∃ evaluated next, next.pages ≠ 0 ∧
        listing.Evaluates progress.cursor evaluated next.cursor ∧
        next.items = progress.items ++ Row.found evaluated ∧
        ∀ bound log result after,
          (paging.continueFrom fetch bound next).Yields store middle log result after →
          (paging.continueFrom fetch (bound + 1) progress).Yields store state (exchange :: log) result
            after := by
  -- an unfinished read wants at least one item, and no page is limited to none
  have wanted : 1 ≤ progress.pageSize paging.limit := by
    have remaining : 1 ≤ progress.remaining paging.limit := by
      rw [Progress.isFinished, Bool.or_eq_false_iff, beq_eq_false_iff_ne] at unfinished
      exact Nat.one_le_iff_ne_zero.2 unfinished.1
    have largest : 1 ≤ Progress.maxPageSize := by decide
    unfold Progress.pageSize
    omega
  obtain ⟨exchange, asked⟩ := asks store progress.cursor (progress.pageSize paging.limit) state
  rcases answer : (fetch progress.cursor (progress.pageSize paging.limit)).run.run store state with
    ⟨error | page, middle⟩
  · refine ⟨exchange, middle, .inl ⟨error, ⟨state, _, _, known, wanted, by rw [answer]⟩, ?_⟩⟩
    intro bound
    rw [continueFrom, if_neg (by simp [unfinished])]
    exact Operation.Yields.bind_error ⟨asked, answer⟩
  · obtain ⟨evaluated, evaluates, isShort, items_eq⟩ :=
      offered state progress.cursor _ page known wanted (by rw [answer])
    refine ⟨exchange, middle, .inr ⟨evaluated, progress.add paging.limit paging.keep page,
      Nat.succ_ne_zero _, evaluates, items_add keep isShort items_eq, ?_⟩⟩
    intro bound log result after yields
    have fetched : (fetch progress.cursor (progress.pageSize paging.limit)).Yields store state
        [exchange] (.ok page) middle := ⟨asked, answer⟩
    rw [continueFrom, if_neg (by simp [unfinished])]
    exact fetched.bind yields

/-- The induction is on the pages that can still come.  A page that has no row is the last. -/
theorem continueFrom_reaches (known : listing.Knows progress.cursor) (started : progress.pages ≠ 0)
    (state : σ) :
    ∃ result log after, listing.Reaches store fetch (listing.unread progress.cursor)
        (listing.pagesLeft progress.cursor) progress log result ∧
      ∀ bound, listing.pagesLeft progress.cursor ≤ bound →
        (paging.continueFrom fetch bound progress).Yields store state log result after := by
  generalize pages_eq : listing.pagesLeft progress.cursor = pages
  induction pages using Nat.strong_induction_on generalizing progress state with
  | _ pages inductionHypothesis =>
    cases finished : progress.isFinished paging.limit paging.effort with
    | true =>
      refine ⟨.ok progress, [], state,
        .stops ⟨known, ⟨[], by simp, by simp [Row.found]⟩, by simp [pages_eq]⟩, ?_⟩
      intro bound _
      cases bound with
      | zero => exact Operation.yields_pure progress
      | succ bound =>
        rw [continueFrom, if_pos finished]
        exact Operation.yields_pure progress
    | false =>
      have someCursor : progress.cursor ≠ none := by
        intro atEnd
        simp [Progress.isFinished, started, atEnd] at finished
      have pages_eq : (listing.behind progress.cursor).length + 1 = pages := by
        rw [← pages_eq, Listing.pagesLeft, if_neg someCursor]
      rw [Listing.unread, if_neg someCursor]
      obtain ⟨exchange, middle, ⟨error, refuses, fails⟩ |
        ⟨evaluated, next, isStarted, evaluates, items_eq, goesOn⟩⟩ :=
        exists_fetch asks offered keep known finished state
      · refine ⟨.error error, [exchange], middle, .fails refuses, fun bound enough => ?_⟩
        obtain ⟨bound, rfl⟩ : ∃ lower, bound = lower + 1 := ⟨bound - 1, by omega⟩
        exact fails bound
      · -- the page brought the read nearer to the end, even if it had no row
        have fewer := evaluates.pagesLeft_le known
        obtain ⟨result, log, after, reaches, yields⟩ :=
          inductionHypothesis _ (by omega) (evaluates.next known).1 isStarted middle rfl
        refine ⟨result, exchange :: log, after, ?_, fun bound enough => ?_⟩
        · rw [← pages_eq]
          exact evaluates.reaches known items_eq reaches
        · obtain ⟨bound, rfl⟩ : ∃ lower, bound = lower + 1 := ⟨bound - 1, by omega⟩
          exact goesOn bound log _ after (yields bound (by omega))

/-- A read from a cursor, of at least one item, asks for a page at least and ends by itself. -/
theorem read_reaches (wanted : 1 ≤ paging.limit) {cursor : Option Item}
    (known : listing.Knows cursor) (state : σ) :
    ∃ result log after, listing.Reaches store fetch (listing.behind cursor)
        ((listing.behind cursor).length + 1) {} log result ∧ log ≠ [] ∧
      ∀ bound, (listing.behind cursor).length < bound →
        (paging.read fetch cursor bound).Yields store state log result after := by
  -- before the first page the lack of a cursor does not count as the end
  have unfinished : ({ cursor } : Progress).isFinished paging.limit paging.effort = false := by
    simp [Progress.isFinished, Progress.remaining]
    omega
  obtain ⟨exchange, middle, ⟨error, refuses, fails⟩ |
    ⟨evaluated, next, isStarted, evaluates, items_eq, goesOn⟩⟩ :=
    exists_fetch asks offered keep known unfinished state
  · refine ⟨.error error, [exchange], middle, .fails refuses, by simp, fun bound enough => ?_⟩
    obtain ⟨bound, rfl⟩ : ∃ lower, bound = lower + 1 := ⟨bound - 1, by omega⟩
    exact fails bound
  · have fewer : listing.pagesLeft next.cursor ≤ (listing.behind cursor).length :=
      evaluates.pagesLeft_le known
    obtain ⟨result, log, after, reaches, yields⟩ :=
      continueFrom_reaches asks offered keep (evaluates.next known).1 isStarted middle
    refine ⟨result, exchange :: log, after, evaluates.reaches known items_eq reaches, by simp,
      fun bound enough => ?_⟩
    obtain ⟨bound, rfl⟩ : ∃ lower, bound = lower + 1 := ⟨bound - 1, by omega⟩
    exact goesOn bound log _ after (yields bound (by omega))

/-- A read from the start, of any number of items, ends by itself.  The items that it keeps are those
that pass among the first rows. -/
theorem read_keeps_prefix (state : σ) :
    ∃ result log after,
      (∀ final, result = .ok final → ∃ evaluated, evaluated <+: listing.rows ∧
        final.items = Row.found evaluated) ∧
      ∀ bound, listing.rows.length < bound →
        (paging.read fetch none bound).Yields store state log result after := by
  have known : listing.Knows none := by simp [Listing.Knows]
  by_cases wanted : 1 ≤ paging.limit
  · obtain ⟨result, log, after, reaches, -, yields⟩ :=
      read_reaches asks offered keep wanted known state
    refine ⟨result, log, after, ?_, yields⟩
    rintro final rfl
    cases reaches with
    | stops advances =>
      obtain ⟨evaluated, rows_eq, items_eq⟩ := advances.items
      exact ⟨evaluated, ⟨_, rows_eq.symm⟩, by simpa using items_eq⟩
  · -- nothing is wanted, so nothing is asked for
    refine ⟨.ok {}, [], state, ?_, fun bound enough => ?_⟩
    · rintro final ⟨⟩
      exact ⟨[], List.nil_prefix, rfl⟩
    · obtain ⟨bound, rfl⟩ : ∃ lower, bound = lower + 1 := ⟨bound - 1, by omega⟩
      have finished : ({} : Progress).isFinished paging.limit paging.effort = true := by
        simp [Progress.isFinished, Progress.remaining]
        omega
      rw [read, continueFrom, if_pos finished]
      exact Operation.yields_pure _

end Offered

/-- When every fetch is answered, the read advances. -/
theorem read_advances (asks : AsksOnce fetch) (served : listing.IsServed store fetch)
    (keep : paging.keep = true) (wanted : 1 ≤ paging.limit) {cursor : Option Item}
    (known : listing.Knows cursor) (state : σ) :
    ∃ final log after, listing.Advances (listing.behind cursor)
        ((listing.behind cursor).length + 1) {} final log ∧ log ≠ [] ∧
      ∀ bound, (listing.behind cursor).length < bound →
        (paging.read fetch cursor bound).Yields store state log (.ok final) after := by
  obtain ⟨result, log, after, reaches, someCall, yields⟩ :=
    read_reaches asks served.isOffered keep wanted known state
  cases reaches with
  | @stops final advances => exact ⟨final, log, after, advances, someCall, yields⟩
  | fails refuses => exact absurd refuses (served.not_refuses _)

end Paging

end SingleTable
