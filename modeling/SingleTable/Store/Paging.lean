import SingleTable.Store.Dialogue

/-!
# Reading page by page

A query or a scan answers one page at a time.  Pages are read until enough items are there,
the store has no more of them, or the effort spent reaches a limit.  What was reached so far
is a `Progress`; whether to go on is a matter of the progress alone.
-/

namespace SingleTable

structure Progress where
  /-- The items kept, in the order of the store. -/
  items : List Item := []
  /-- The number of items read, kept or not. -/
  count : Nat := 0
  /-- The key after which the next page starts. -/
  cursor : Option Item := none
  /-- The number of pages read. -/
  pages : Nat := 0
  /-- The read capacity used. -/
  capacity : Float := 0
  /-- The number of items evaluated, in a word that wraps. -/
  scanned : UInt64 := 0

namespace Progress

/-- The largest page size a request can ask for. -/
def maxPageSize : Nat := UInt32.size / 2 - 1

/-- The number of items still wanted. -/
def remaining (progress : Progress) (limit : Nat) : Nat := limit - progress.count

def pageSize (progress : Progress) (limit : Nat) : Nat :=
  min (progress.remaining limit) maxPageSize

def isSpent (progress : Progress) : Option EffortLimit → Bool
  | none => false
  | some (.capacity units) => progress.capacity ≥ units
  | some (.scanned items) => progress.scanned ≥ items

/-- Whether no more page is to be read. -/
def isFinished (progress : Progress) (limit : Nat) (effort : Option EffortLimit) : Bool :=
  progress.remaining limit == 0
    || (progress.pages != 0 && (progress.cursor.isNone || progress.isSpent effort))

/-- The progress after one more page; items beyond the limit are dropped, and only their
number is noted unless they are to be kept. -/
def add (progress : Progress) (limit : Nat) (keep : Bool) (page : Page) : Progress :=
  let taken := page.items.take (progress.remaining limit)
  { items := if keep then progress.items ++ taken else progress.items
    count := progress.count + taken.length
    cursor := page.next
    pages := progress.pages + 1
    capacity := progress.capacity + page.capacity.getD 0
    scanned := progress.scanned + page.scanned }

end Progress

structure Paging where
  /-- The number of items wanted at most. -/
  limit : Nat
  /-- A limit on the effort. -/
  effort : Option EffortLimit := none
  /-- Whether the items are kept and not only counted. -/
  keep : Bool := true

namespace Paging

/-- Read at most a number of pages, going on from some progress.  `fetch` reads the page
after a cursor of at most a size. -/
def continueFrom (paging : Paging) (fetch : Option Item → Nat → Operation Page) :
    Nat → Progress → Operation Progress
  | 0, progress => return progress
  | pages + 1, progress =>
    if progress.isFinished paging.limit paging.effort then
      return progress
    else do
      let page ← fetch progress.cursor (progress.pageSize paging.limit)
      paging.continueFrom fetch pages (progress.add paging.limit paging.keep page)

def read (paging : Paging) (fetch : Option Item → Nat → Operation Page)
    (cursor : Option Item) (pages : Nat) : Operation Progress :=
  paging.continueFrom fetch pages { cursor }

end Paging

end SingleTable
