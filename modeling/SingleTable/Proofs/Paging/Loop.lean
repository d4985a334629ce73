import SingleTable.Proofs.Store.Log
import SingleTable.Store.Paging

/-!
# How a read over several pages ends

Whatever a store answers, the pages that were read say all that a read has reached (`Paging.reached`):
each page adds itself (`add_reached`), and whether to go on depends on the pages alone
(`isFinished_reached_iff`).  A read that returns has fetched pages one after another, and the last of
them is the first with which it could stop (`Paging.returns_iff_fetches`).

The number of pages that a read is allowed is no part of what it does: it `Returns` what it returns
whenever it is allowed enough of them.

The number of items that pages evaluated is added up in a word.  As long as the word holds it the total
is exact (`spent_scanned_iff`); from there on it starts anew.
-/

namespace SingleTable

namespace Paging

variable {σ : Type} {paging : Paging} {store : Store σ} {fetch : Option Item → Nat → Operation Page}
  {cursor : Option Item} {pages : List Page} {state middle after : σ}

/-! ## What pages say -/

def itemsOf (pages : List Page) : List Item := pages.flatMap (·.items)

/-- Where to go on after some pages: where the last of them says, or where the read started. -/
def cursorAfter (cursor : Option Item) (pages : List Page) : Option Item :=
  match pages.getLast? with
  | none => cursor
  | some last => last.next

def countAfter (paging : Paging) (pages : List Page) : Nat := min paging.limit (itemsOf pages).length

def sizeAfter (paging : Paging) (pages : List Page) : Nat :=
  min (paging.limit - paging.countAfter pages) 2147483647

def capacityOf (pages : List Page) : Float :=
  pages.foldl (fun capacity page => capacity + page.capacity.getD 0) 0

/-- The number of items that some pages evaluated. -/
def scannedOf (pages : List Page) : Nat :=
  pages.foldl (fun scanned page => scanned + page.scanned.toNat) 0

/-- The effort spent on some pages reaches a limit; the items that they evaluated are counted in a
word. -/
def Spent (pages : List Page) : Option EffortLimit → Prop
  | none => False
  | some (.capacity units) => units ≤ capacityOf pages
  | some (.scanned items) => items.toNat ≤ scannedOf pages % UInt64.size

theorem spent_scanned_iff (fits : scannedOf pages < UInt64.size) (items : UInt64) :
    Spent pages (some (.scanned items)) ↔ items.toNat ≤ scannedOf pages := by
  rw [Spent, Nat.mod_eq_of_lt fits]

/-- A total that the word does not hold starts anew, and the read goes on. -/
example : ¬ Spent [{ scanned := 9223372036854775808 }, { scanned := 9223372036854775808 }]
    (some (.scanned 1)) := by
  simp [Spent, scannedOf]

/-- No page is read after these: enough items are counted, or the last page is the last there is, or
the effort is spent. -/
def Stops (paging : Paging) (pages : List Page) : Prop :=
  paging.limit ≤ paging.countAfter pages ∨
    ∃ last ∈ pages.getLast?, last.next = none ∨ Spent pages paging.effort

/-- What a read from a cursor has reached with some pages. -/
def reached (paging : Paging) (cursor : Option Item) (pages : List Page) : Progress where
  items := if paging.keep then (itemsOf pages).take (paging.countAfter pages) else []
  count := paging.countAfter pages
  cursor := cursorAfter cursor pages
  pages := pages.length
  capacity := capacityOf pages
  scanned := .ofNat (scannedOf pages)

theorem reached_nil (paging : Paging) (cursor : Option Item) :
    paging.reached cursor [] = { cursor } := by
  simp [reached, itemsOf, countAfter, cursorAfter, capacityOf, scannedOf]

/-- A page adds itself to what was reached. -/
theorem add_reached (page : Page) :
    (paging.reached cursor pages).add paging.limit paging.keep page =
      paging.reached cursor (pages ++ [page]) := by
  have items_eq : itemsOf (pages ++ [page]) = itemsOf pages ++ page.items := by simp [itemsOf]
  have taken_eq : page.items.take (paging.limit - paging.countAfter pages) =
      page.items.take (paging.limit - (itemsOf pages).length) := by
    congr 1
    unfold countAfter
    omega
  simp only [Progress.add, Progress.remaining, reached, Progress.mk.injEq]
  refine ⟨?_, ?_, ?_, ?_, ?_, ?_⟩
  · split
    · rw [taken_eq, countAfter, countAfter, items_eq, ← List.take_eq_take_min,
        ← List.take_eq_take_min, List.take_append]
    · rfl
  · rw [countAfter, countAfter, items_eq, List.length_append, List.length_take]
    omega
  · simp [cursorAfter]
  · simp
  · simp [capacityOf]
  · simp [scannedOf, UInt64.ofNat_add]

theorem isSpent_reached_iff (effort : Option EffortLimit) :
    (paging.reached cursor pages).isSpent effort = true ↔ Spent pages effort := by
  rcases effort with _ | units | items
  · simp [Progress.isSpent, Spent]
  · simp [Progress.isSpent, Spent, reached]
  · simp [Progress.isSpent, Spent, reached, UInt64.le_iff_toNat_le]

/-- Whether to go on is a matter of the pages alone. -/
theorem isFinished_reached_iff :
    (paging.reached cursor pages).isFinished paging.limit paging.effort = true ↔
      paging.Stops pages := by
  have enough : ((paging.reached cursor pages).remaining paging.limit == 0) = true ↔
      paging.limit ≤ paging.countAfter pages := by
    simp [Progress.remaining, reached, Nat.sub_eq_zero_iff_le]
  rw [Progress.isFinished, Bool.or_eq_true, enough, Stops]
  refine or_congr_right ?_
  rcases List.eq_nil_or_concat pages with rfl | ⟨earlier, last, rfl⟩
  · simp [reached]
  · rw [Bool.and_eq_true, Bool.or_eq_true, isSpent_reached_iff]
    simp [reached, cursorAfter]

/-! ## Fetching page after page -/

/-- From one state of the store to another, pages are fetched one after another: each from where the
one before says, and of the size that is still wanted. -/
inductive Fetches (paging : Paging) (store : Store σ) (fetch : Option Item → Nat → Operation Page)
    (cursor : Option Item) (state : σ) : List Page → σ → Prop where
  | start : Fetches paging store fetch cursor state [] state
  | next {pages : List Page} {middle after : σ} {page : Page}
      (earlier : Fetches paging store fetch cursor state pages middle)
      (fetched : (fetch (cursorAfter cursor pages) (paging.sizeAfter pages)).run.run store middle =
        (.ok page, after)) :
      Fetches paging store fetch cursor state (pages ++ [page]) after

/-- The read has not stopped before these pages, nor with all but the last of them. -/
def Needs (paging : Paging) (pages : List Page) : Prop :=
  ∀ count < pages.length, ¬ paging.Stops (pages.take count)

theorem needs_append_iff {page : Page} :
    paging.Needs (pages ++ [page]) ↔ paging.Needs pages ∧ ¬ paging.Stops pages := by
  constructor
  · intro needs
    constructor
    · intro count isEarlier
      have here := needs count (by simp; omega)
      rwa [List.take_append_of_le_length (Nat.le_of_lt isEarlier)] at here
    · have here := needs pages.length (by simp)
      rwa [List.take_left] at here
  · rintro ⟨needs, goesOn⟩ count isEarlier
    rw [List.length_append, List.length_singleton, Nat.lt_succ_iff_lt_or_eq] at isEarlier
    rcases isEarlier with isEarlier | rfl
    · rw [List.take_append_of_le_length (Nat.le_of_lt isEarlier)]
      exact needs count isEarlier
    · rwa [List.take_left]

/-- A read that goes on asks for at least one item. -/
theorem one_le_sizeAfter (goesOn : ¬ paging.Stops pages) : 1 ≤ paging.sizeAfter pages := by
  have wanted : ¬ paging.limit ≤ paging.countAfter pages := fun enough => goesOn (.inl enough)
  unfold sizeAfter
  omega

/-! ## One page at a time -/

theorem run_of_stops (stops : paging.Stops pages) (bound : Nat) (state : σ) :
    (paging.continueFrom fetch bound (paging.reached cursor pages)).run.run store state =
      (.ok (paging.reached cursor pages), state) := by
  cases bound with
  | zero => rfl
  | succ bound =>
    rw [continueFrom, if_pos (isFinished_reached_iff.2 stops)]
    rfl

theorem run_of_page {page : Page} (goesOn : ¬ paging.Stops pages)
    (fetched : (fetch (cursorAfter cursor pages) (paging.sizeAfter pages)).run.run store state =
      (.ok page, after)) (bound : Nat) :
    (paging.continueFrom fetch (bound + 1) (paging.reached cursor pages)).run.run store state =
      (paging.continueFrom fetch bound (paging.reached cursor (pages ++ [page]))).run.run store
        after := by
  rw [continueFrom, if_neg (mt isFinished_reached_iff.1 goesOn), ← add_reached]
  refine (Dialogue.run_bind store (fetch (cursorAfter cursor pages) (paging.sizeAfter pages)).run _
    state).trans ?_
  rw [fetched]
  rfl

theorem run_of_error {error : Error} (goesOn : ¬ paging.Stops pages)
    (failed : (fetch (cursorAfter cursor pages) (paging.sizeAfter pages)).run.run store state =
      (.error error, after)) (bound : Nat) :
    (paging.continueFrom fetch (bound + 1) (paging.reached cursor pages)).run.run store state =
      (.error error, after) := by
  rw [continueFrom, if_neg (mt isFinished_reached_iff.1 goesOn)]
  refine (Dialogue.run_bind store (fetch (cursorAfter cursor pages) (paging.sizeAfter pages)).run _
    state).trans ?_
  rw [failed]
  rfl

/-- A read goes on from the pages that it has fetched. -/
theorem run_of_fetches (fetches : paging.Fetches store fetch cursor state pages middle)
    (needs : paging.Needs pages) (bound : Nat) :
    (paging.read fetch cursor (bound + pages.length)).run.run store state =
      (paging.continueFrom fetch bound (paging.reached cursor pages)).run.run store middle := by
  induction fetches generalizing bound with
  | start => rw [reached_nil]; rfl
  | @next pages middle after page earlier fetched inductionHypothesis =>
    obtain ⟨needs, goesOn⟩ := needs_append_iff.1 needs
    have bound_eq : bound + (pages ++ [page]).length = bound + 1 + pages.length := by
      rw [List.length_append, List.length_singleton]
      omega
    rw [bound_eq, inductionHypothesis needs, run_of_page goesOn fetched]

/-! ## How a read ends -/

/-- A read returns a result when it is allowed enough pages, however many more. -/
def Returns (paging : Paging) (store : Store σ) (fetch : Option Item → Nat → Operation Page)
    (cursor : Option Item) (state : σ) (result : Except Error Progress) (after : σ) : Prop :=
  ∃ enough, ∀ bound, enough ≤ bound →
    (paging.read fetch cursor bound).run.run store state = (result, after)

/-- A read has fetched pages until it could stop, or until a fetch failed. -/
inductive Ends (paging : Paging) (store : Store σ) (fetch : Option Item → Nat → Operation Page)
    (cursor : Option Item) (state : σ) : Except Error Progress → σ → Prop where
  | stops {pages : List Page} {after : σ}
      (fetches : paging.Fetches store fetch cursor state pages after) (needs : paging.Needs pages)
      (stops : paging.Stops pages) :
      Ends paging store fetch cursor state (.ok (paging.reached cursor pages)) after
  | fails {pages : List Page} {middle after : σ} {error : Error}
      (fetches : paging.Fetches store fetch cursor state pages middle) (needs : paging.Needs pages)
      (goesOn : ¬ paging.Stops pages)
      (failed : (fetch (cursorAfter cursor pages) (paging.sizeAfter pages)).run.run store middle =
        (.error error, after)) :
      Ends paging store fetch cursor state (.error error) after

theorem Ends.returns {result : Except Error Progress}
    (ends : paging.Ends store fetch cursor state result after) :
    paging.Returns store fetch cursor state result after := by
  cases ends with
  | @stops pages _ fetches needs stops =>
    refine ⟨pages.length, fun bound enough => ?_⟩
    obtain ⟨bound, rfl⟩ := Nat.exists_eq_add_of_le' enough
    rw [run_of_fetches fetches needs, run_of_stops stops]
  | @fails pages middle _ error fetches needs goesOn failed =>
    refine ⟨1 + pages.length, fun bound enough => ?_⟩
    obtain ⟨bound, rfl⟩ := Nat.exists_eq_add_of_le' enough
    rw [← Nat.add_assoc, run_of_fetches fetches needs, run_of_error goesOn failed]

/-- A read that does not end fetches any number of pages. -/
theorem ends_or_fetches (paging : Paging) (store : Store σ)
    (fetch : Option Item → Nat → Operation Page) (cursor : Option Item) (state : σ) (count : Nat) :
    (∃ result after, paging.Ends store fetch cursor state result after) ∨
      ∃ pages after, pages.length = count ∧ paging.Fetches store fetch cursor state pages after ∧
        paging.Needs pages := by
  induction count with
  | zero => exact .inr ⟨[], state, rfl, .start, by simp [Needs]⟩
  | succ count inductionHypothesis =>
    rcases inductionHypothesis with ends | ⟨pages, middle, rfl, fetches, needs⟩
    · exact .inl ends
    · by_cases stops : paging.Stops pages
      · exact .inl ⟨_, _, .stops fetches needs stops⟩
      · rcases answer : (fetch (cursorAfter cursor pages) (paging.sizeAfter pages)).run.run store middle
          with ⟨error | page, after⟩
        · exact .inl ⟨_, _, .fails fetches needs stops answer⟩
        · exact .inr ⟨pages ++ [page], after, by simp, .next fetches answer,
            needs_append_iff.2 ⟨needs, stops⟩⟩

theorem ends_of_returns {result : Except Error Progress}
    (returns : paging.Returns store fetch cursor state result after) :
    paging.Ends store fetch cursor state result after := by
  obtain ⟨enough, isResult⟩ := returns
  have isOnly : ∀ {other last}, paging.Ends store fetch cursor state other last →
      paging.Ends store fetch cursor state result after := by
    intro other last ends
    obtain ⟨enough', isOther⟩ := ends.returns
    have same := (isResult (enough + enough') (by omega)).symm.trans (isOther _ (by omega))
    obtain ⟨rfl, rfl⟩ := Prod.mk.inj same
    exact ends
  rcases ends_or_fetches paging store fetch cursor state enough with
    ⟨_, _, ends⟩ | ⟨pages, middle, rfl, fetches, needs⟩
  · exact isOnly ends
  rcases ends_or_fetches paging store fetch cursor state (pages.length + 1) with
    ⟨_, _, ends⟩ | ⟨more, last, more_eq, fetchesMore, needsMore⟩
  · exact isOnly ends
  -- a read that still fetches returns something else with each page that it is allowed
  have first := run_of_fetches fetches needs 0
  have second := run_of_fetches fetchesMore needsMore 0
  rw [isResult _ (by omega)] at first second
  have same := congrArg Progress.pages (Except.ok.inj (Prod.mk.inj (first.symm.trans second)).1)
  exact absurd (same.trans more_eq) (by simp [reached])

/-- A read returns progress if and only if it has fetched pages one after another, each of at least one
item, and with the last of them, but with no earlier one, it could stop; and the progress is what these
pages say.  It returns an error if and only if a fetch did before it could stop.  A limit on the items
evaluated is reached if and only if their total reaches it, unless there are more than a word holds. -/
theorem returns_iff_fetches (paging : Paging) (store : Store σ) (fetch : Option Item → Nat → Operation Page)
    (cursor : Option Item) (state after : σ) :
    (∀ progress, paging.Returns store fetch cursor state (.ok progress) after ↔
      ∃ pages, paging.Fetches store fetch cursor state pages after ∧
        (∀ count < pages.length, 1 ≤ paging.sizeAfter (pages.take count)) ∧
        paging.Stops pages ∧ (∀ count < pages.length, ¬ paging.Stops (pages.take count)) ∧
        progress = paging.reached cursor pages) ∧
    (∀ error, paging.Returns store fetch cursor state (.error error) after ↔
      ∃ pages middle, paging.Fetches store fetch cursor state pages middle ∧
        (∀ count ≤ pages.length, ¬ paging.Stops (pages.take count)) ∧
        (fetch (cursorAfter cursor pages) (paging.sizeAfter pages)).run.run store middle =
          (.error error, after)) ∧
    ∀ pages, scannedOf pages < UInt64.size → ∀ items,
      Spent pages (some (.scanned items)) ↔ items.toNat ≤ scannedOf pages := by
  refine ⟨fun progress => ⟨fun returns => ?_, ?_⟩, fun error => ⟨fun returns => ?_, ?_⟩,
    fun _ => spent_scanned_iff⟩
  · cases ends_of_returns returns with
    | @stops pages _ fetches needs stops =>
      exact ⟨pages, fetches, fun count isEarlier => one_le_sizeAfter (needs count isEarlier), stops,
        needs, rfl⟩
  · rintro ⟨pages, fetches, -, stops, needs, rfl⟩
    exact (Ends.stops fetches needs stops).returns
  · cases ends_of_returns returns with
    | @fails pages middle _ _ fetches needs goesOn failed =>
      refine ⟨pages, middle, fetches, fun count isEarlier => ?_, failed⟩
      rcases Nat.lt_or_eq_of_le isEarlier with isEarlier | rfl
      · exact needs count isEarlier
      · rwa [List.take_length]
  · rintro ⟨pages, middle, fetches, goesOn, failed⟩
    have goesOnHere := goesOn pages.length (Nat.le_refl _)
    rw [List.take_length] at goesOnHere
    exact (Ends.fails fetches (fun count isEarlier => goesOn count (Nat.le_of_lt isEarlier)) goesOnHere
      failed).returns

end Paging

end SingleTable
