import SingleTable.Connection.Entities

/-!
# Scans

A scan reads a whole table, whatever entities the items belong to, or the items of one
entity.  A parallel scan reads the segments of a table as dialogues that run at once.
-/

namespace SingleTable

namespace Connection

def scanPages (request : ScanRequest) (paging : Paging) (pages : Nat) : Operation Progress :=
  paging.read
    (fun cursor size => Operation.ask
      (.scan { request with limit := some size, start := cursor }))
    request.start pages

/-- What a scan wants: all items up to a limit, which has a default. -/
def scanPaging (connection : Connection) (options : ScanOptions) : Paging :=
  { limit := options.limit.getD connection.config.defaultQueryLimit
    effort := options.effort }

def scan (connection : Connection) (options : ScanOptions) (pages : Nat) :
    Operation (Found LogicalItem) := do
  let request ← (← connection.scanTable).scanRequest none options
  let progress ← scanPages request (connection.scanPaging options) pages
  return ⟨← connection.toLogicalItems progress.items, progress.cursor⟩

def scanFind {α : Type} [Storable α] (connection : Connection) (typeName : String)
    (options : ScanOptions) (pages : Nat) : Operation (Found α) := do
  let entity ← connection.entity typeName
  let request ← entity.scanRequest options
  let progress ← scanPages request (connection.scanPaging options) pages
  return ⟨← entity.readValues connection.engine progress.items, progress.cursor⟩

/-- The number of items of one entity.  The default limit does not apply. -/
def scanCount (connection : Connection) (typeName : String) (options : ScanOptions)
    (pages : Nat) : Operation Nat := do
  let entity ← connection.entity typeName
  let request ← entity.scanRequest options
  let paging : Paging :=
    { limit := options.limit.getD unlimited, effort := options.effort, keep := false }
  return (← scanPages request paging pages).count

/-! ## Segments -/

def segmentOptions (options : ScanOptions) (total segment : Nat) : ScanOptions :=
  { options with segment := some segment, totalSegments := some total, cursor := none }

/-- The dialogues that read the segments of the whole table, of which there is at least
one. -/
def segmentScans (connection : Connection) (segments : Int) (options : ScanOptions)
    (pages : Nat) : Except Error (Pool (Except Error Progress)) := do
  let table ← connection.scanTable
  let total := (max segments 1).toNat
  let dialogues ← (List.range total).mapM fun segment => do
    let options := segmentOptions options total segment
    let request ← table.scanRequest none options
    return (scanPages request (connection.scanPaging options) pages).run
  return { dialogues, width := connection.config.maxConcurrency, turns := total }

/-- The items of all segments, one after another; fails at the first segment that was not read and
the first item that cannot be converted. -/
def joinSegments (connection : Connection) :
    List (Except Error Progress) → Except Error (List LogicalItem)
  | [] => .ok []
  | segment :: rest => do
    let items ← connection.toLogicalItems (← segment).items
    return items ++ (← connection.joinSegments rest)

end Connection

end SingleTable
