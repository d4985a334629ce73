import SingleTable.Proofs.Batch.Reading
import SingleTable.Proofs.Paging.Resumption

/-!
# Reading the segments of a table at once

The segments of a scan are dialogues of a pool.  Each has its own request, which differs from the
others in nothing but the segment (`Connection.segmentScans_eq`), and goes on from its own cursor
(`PagesFrom`).  What a segment comes to is what a read of it comes to that runs alone, so it is fixed
before any order is; the order in which the segments are done is only the order of their items
(`Connection.parallelScan_unites`).  Joining them fails if a segment was not read, or an item of one
that was cannot be converted (`Connection.joinSegments_fails_iff`).
-/

namespace SingleTable

/-! ## The exchanges of a scan -/

/-- The exchanges of a scan from a cursor: each page is asked for where the page before it ended, and
a call that failed is the last. -/
inductive PagesFrom (request : ScanRequest) : Option Item → List Exchange → Prop where
  | nothing (cursor : Option Item) : PagesFrom request cursor []
  | failed (cursor : Option Item) (size : Nat) (error : Error) :
      PagesFrom request cursor
        [⟨.scan { request with limit := some size, start := cursor }, .error error⟩]
  | page (cursor : Option Item) (size : Nat) (page : Page) {log : List Exchange}
      (others : PagesFrom request page.next log) :
      PagesFrom request cursor
        (⟨.scan { request with limit := some size, start := cursor }, .ok page⟩ :: log)

theorem Paging.pagesFrom_of_completes {paging : Paging} {request : ScanRequest} {bound : Nat}
    {progress : Progress} {log : List Exchange} {result : Except Error Progress}
    (completes : (paging.continueFrom (fun cursor size =>
      Operation.ask (.scan { request with limit := some size, start := cursor })) bound
        progress).run.Completes log result) :
    PagesFrom request progress.cursor log := by
  induction bound generalizing progress log with
  | zero =>
    obtain ⟨rfl, -⟩ := Operation.completes_pure_iff.1 completes
    exact .nothing _
  | succ bound inductionHypothesis =>
    rw [continueFrom] at completes
    split at completes
    · obtain ⟨rfl, -⟩ := Operation.completes_pure_iff.1 completes
      exact .nothing _
    · -- a page is one exchange, which either ends the read or hands on its cursor
      obtain ⟨error, asked, -⟩ | ⟨page, first, second, rfl, asked, others⟩ :=
        Operation.completes_bind_iff.1 completes
      · obtain rfl := Operation.completes_ask_iff.1 asked
        exact .failed _ _ error
      · obtain rfl := Operation.completes_ask_iff.1 asked
        exact .page _ _ page (inductionHypothesis others)

/-! ## Numbered dialogues -/

namespace Pool

variable {α : Type} {pool : Pool α} {total : Nat} {dialogue : Nat → Dialogue α}
  (dialogues_eq : pool.dialogues = (List.range total).map dialogue)
include dialogues_eq

/-- Dialogues that are made for numbers have these numbers. -/
theorem zipIdx_of_range :
    pool.dialogues.zipIdx = (List.range total).map fun number => (dialogue number, number) := by
  rw [dialogues_eq]
  exact List.ext_getElem (by simp) (by simp)

theorem numbers_of_range {log : List (Exchange × Nat)} {results : List (α × Nat)}
    (apart : pool.tasks.Apart log results) :
    (∀ entry ∈ log, entry.2 < total) ∧ (results.map (·.2)).Perm (List.range total) := by
  have numbers_eq : pool.dialogues.zipIdx.map (·.2) = List.range total := by
    rw [zipIdx_of_range dialogues_eq, List.map_map]
    exact List.map_id _
  constructor
  · intro entry isEntry
    have isNumber := apart.within entry isEntry
    rw [Pool.tasks, Multiset.map_coe, numbers_eq] at isNumber
    exact List.mem_range.1 isNumber
  · have numbers := apart.numbers
    rw [Pool.tasks, Multiset.map_coe, numbers_eq] at numbers
    exact Multiset.coe_eq_coe.1 numbers

end Pool

/-! ## Requests of segments -/

def ScanRequest.ofSegment (request : ScanRequest) (total segment : Nat) : ScanRequest :=
  { request with segment := some segment, totalSegments := some total, start := none }

def Progress.itemsOf : Except Error Progress → List Item
  | .ok progress => progress.items
  | .error _ => []

namespace Connection

variable {connection : Connection} {options : ScanOptions} {total : Nat}

/-- The number of segments that are read when some number is asked for: at least one. -/
def segmentCount (segments : Int) : Nat := (max segments 1).toNat

def foundIn (connection : Connection) (progress : Progress) : Except Error (Found LogicalItem) :=
  (⟨·, progress.cursor⟩) <$> connection.toLogicalItems progress.items

def scanRequest (connection : Connection) (options : ScanOptions) : Except Error ScanRequest := do
  (← connection.scanTable).scanRequest none options

def readScan (connection : Connection) (options : ScanOptions) (pages : Nat) : Operation Progress :=
  Operation.ofExcept (connection.scanRequest options) >>= fun request =>
    scanPages request (connection.scanPaging options) pages

/-- A scan reads pages, and then converts the items it has kept. -/
theorem scan_eq (connection : Connection) (options : ScanOptions) (pages : Nat) :
    connection.scan options pages =
      connection.readScan options pages >>= fun progress => Operation.ofExcept (connection.foundIn progress) := by
  have converted (progress : Progress) : (do
      let items ← connection.toLogicalItems progress.items
      return ⟨items, progress.cursor⟩ : Operation (Found LogicalItem)) =
        Operation.ofExcept (connection.foundIn progress) := by
    unfold foundIn
    cases connection.toLogicalItems progress.items <;> rfl
  unfold scan readScan scanRequest
  simp only [converted]
  cases connection.scanTable with
  | error error => rfl
  | ok table =>
    change (Operation.ofExcept (table.scanRequest none options) >>= _) =
      (Operation.ofExcept (table.scanRequest none options) >>= _) >>= _
    cases table.scanRequest none options <;> rfl

theorem yields_scan {σ : Type} {store : Store σ} {state after : σ} {log : List Exchange}
    {result : Except Error Progress} {pages : Nat}
    (yields : (connection.readScan options pages).Yields store state log result after) :
    (connection.scan options pages).Yields store state log (result >>= connection.foundIn) after := by
  rw [scan_eq]
  cases result with
  | error error => exact yields.bind_error
  | ok progress =>
    rw [← List.append_nil log]
    exact yields.bind (Operation.yields_ofExcept _)

theorem fetch_scan (connection : Connection) (options : ScanOptions) :
    (PagedRead.scan options).fetch connection =
      (fun request cursor size => Operation.ask
        (.scan { request with limit := some size, start := cursor })) <$>
          connection.scanRequest options := by
  rw [PagedRead.fetch, scanRequest]
  cases connection.scanTable with
  | error error => rfl
  | ok table => cases table.scanRequest none options <;> rfl

/-- The requests of all segments differ in their places only. -/
theorem scanRequest_segment (connection : Connection) (options : ScanOptions) (total segment : Nat) :
    connection.scanRequest (segmentOptions options total segment) =
      (fun request => request.ofSegment total segment) <$> connection.scanRequest options := by
  unfold scanRequest
  cases connection.scanTable with
  | error error => rfl
  | ok table =>
    exact table.scanRequest_elsewhere none options (segmentOptions options total segment) rfl rfl rfl

theorem readScan_segment {request : ScanRequest} (isRequest : connection.scanRequest options = .ok request)
    (total segment pages : Nat) :
    connection.readScan (segmentOptions options total segment) pages =
      scanPages (request.ofSegment total segment) (connection.scanPaging options) pages := by
  rw [readScan, scanRequest_segment, isRequest]
  rfl

/-- All segments are refused with the request, or each is read by its own. -/
theorem segmentScans_eq (connection : Connection) (segments : Int) (options : ScanOptions)
    (pages : Nat) :
    connection.segmentScans segments options pages =
      (fun request => {
        dialogues := (List.range (segmentCount segments)).map fun segment =>
          (scanPages (request.ofSegment (segmentCount segments) segment)
            (connection.scanPaging options) pages).run
        width := connection.config.maxConcurrency
        turns := segmentCount segments }) <$> connection.scanRequest options := by
  -- there is a first segment, so a request that fails is noticed
  obtain ⟨others, count_eq⟩ : ∃ others, segmentCount segments = others + 1 :=
    ⟨segmentCount segments - 1, by unfold segmentCount; omega⟩
  have unfolded : connection.segmentScans segments options pages = (do
      let _ ← connection.scanTable
      let dialogues ← (List.range (segmentCount segments)).mapM fun segment => do
        let request ← connection.scanRequest (segmentOptions options (segmentCount segments) segment)
        return (scanPages request (connection.scanPaging options) pages).run
      return ⟨dialogues, connection.config.maxConcurrency, segmentCount segments⟩) := by
    unfold scanRequest segmentScans
    cases connection.scanTable <;> rfl
  rw [unfolded]
  simp only [scanRequest_segment]
  cases isRequest : connection.scanRequest options with
  | error error =>
    rw [count_eq, List.range_succ_eq_map, List.mapM_cons]
    cases isTable : connection.scanTable with
    | error missing =>
      rw [scanRequest, isTable] at isRequest
      exact congrArg Except.error (Except.error.inj isRequest)
    | ok table => rfl
  | ok request =>
    obtain ⟨table, isTable, -⟩ := bind_eq_ok.1 isRequest
    rw [isTable]
    exact congrArg (Functor.map _) (List.mapM_pure (m := Except Error))

/-! ## Joining -/

theorem joinSegments_eq_ok {results : List (Except Error Progress)} {items : List LogicalItem}
    (joined : connection.joinSegments results = .ok items) :
    List.Forall₂ (connection.registry.Attributes connection.engine) (results.flatMap Progress.itemsOf)
      items := by
  induction results generalizing items with
  | nil =>
    obtain rfl := Except.ok.inj joined
    exact .nil
  | cons result results inductionHypothesis =>
    obtain ⟨progress, rfl, rest⟩ := bind_eq_ok.1 joined
    obtain ⟨first, converted, rest⟩ := bind_eq_ok.1 rest
    obtain ⟨others, joinedOthers, answer⟩ := bind_eq_ok.1 rest
    obtain rfl := Except.ok.inj answer
    exact List.rel_append (toLogicalItems_eq_ok_iff.1 converted) (inductionHypothesis joinedOthers)

/-- The read of a segment failed, or an item that it kept cannot be converted. -/
def Spoils (connection : Connection) (result : Except Error Progress) : Prop :=
  (∃ error, result = .error error) ∨
    ∃ item ∈ Progress.itemsOf result, connection.registry.Unreadable connection.engine item

theorem joinSegments_fails_iff {results : List (Except Error Progress)} :
    (∃ error, connection.joinSegments results = .error error) ↔
      ∃ result ∈ results, connection.Spoils result := by
  induction results with
  | nil => simp [joinSegments]
  | cons result results inductionHypothesis =>
    rw [List.exists_mem_cons_iff, ← inductionHypothesis]
    cases result with
    | error error => exact iff_of_true ⟨error, rfl⟩ (.inl (.inl ⟨error, rfl⟩))
    | ok progress =>
      have spoils_iff : connection.Spoils (.ok progress) ↔
          ∃ error, connection.toLogicalItems progress.items = .error error := by
        rw [toLogicalItems_fails_iff, Spoils, or_iff_right (by simp), Progress.itemsOf]
      rw [spoils_iff]
      change (∃ error, (do
        let items ← connection.toLogicalItems progress.items
        return items ++ (← connection.joinSegments results)) = .error error) ↔ _
      cases connection.toLogicalItems progress.items with
      | error error => exact iff_of_true ⟨error, rfl⟩ (.inl ⟨error, rfl⟩)
      | ok items =>
        cases connection.joinSegments results with
        | error error => exact iff_of_true ⟨error, rfl⟩ (.inr ⟨error, rfl⟩)
        | ok others =>
          refine iff_of_false ?_ ?_
          · rintro ⟨_, ⟨⟩⟩
          · rintro (⟨_, ⟨⟩⟩ | ⟨_, ⟨⟩⟩)

/-! ## Segments by themselves -/

/-- The store has divided the table: whenever it answers a scan of one of the segments, then with a page
of the rows of this segment. -/
def Divides (connection : Connection) (options : ScanOptions) (total : Nat) (listing : Nat → Listing)
    (answers : (call : Call) → Except Error call.Answer) : Prop :=
  ∀ segment < total, ∀ fetch,
    (PagedRead.scan (segmentOptions options total segment)).fetch connection = .ok fetch →
      (listing segment).IsOffered (.atRest answers) fetch

/-- A read of one segment that runs alone. -/
structure ReadsSegment (connection : Connection) (options : ScanOptions) (total : Nat)
    (listing : Listing) (answers : (call : Call) → Except Error call.Answer) (segment : Nat)
    (log : List Exchange) (result : Except Error Progress) : Prop where
  /-- It makes these exchanges and has this result, unless it is allowed too few pages. -/
  yields : ∀ pages, listing.rows.length < pages →
    (connection.readScan (segmentOptions options total segment) pages).Yields (.atRest answers) () log
      result ()
  /-- A scan of the segment returns what its read comes to, converted. -/
  scans : ∀ pages, listing.rows.length < pages →
    (connection.scan (segmentOptions options total segment) pages).Yields (.atRest answers) () log
      (result >>= connection.foundIn) ()
  /-- It asks for pages of its segment alone, from the start of the segment on. -/
  pages : ∃ request : ScanRequest, request.segment = some segment ∧
    request.totalSegments = some total ∧ PagesFrom request none log
  /-- It keeps the items that pass among the first rows of the segment. -/
  keeps : ∀ progress, result = .ok progress →
    ∃ evaluated, evaluated <+: listing.rows ∧ progress.items = Row.found evaluated

section Segments

variable {segments : Int} {listing : Nat → Listing} {answers : (call : Call) → Except Error call.Answer}

theorem exists_readsSegment (divides : connection.Divides options total listing answers) {segment : Nat}
    (isSegment : segment < total) :
    ∃ log result, connection.ReadsSegment options total (listing segment) answers segment log result := by
  suffices reads : ∃ log result, (∀ pages, (listing segment).rows.length < pages →
        (connection.readScan (segmentOptions options total segment) pages).Yields (.atRest answers) () log
          result ()) ∧
      (∃ request : ScanRequest, request.segment = some segment ∧
        request.totalSegments = some total ∧ PagesFrom request none log) ∧
      ∀ progress, result = .ok progress →
        ∃ evaluated, evaluated <+: (listing segment).rows ∧ progress.items = Row.found evaluated by
    obtain ⟨log, result, yields, pages, keeps⟩ := reads
    exact ⟨log, result, yields, fun pages enough => yields_scan (yields pages enough), pages, keeps⟩
  cases isRequest : connection.scanRequest options with
  | error error =>
    refine ⟨[], .error error, fun pages _ => ?_, ?_, fun _ isRead => by cases isRead⟩
    · rw [readScan, scanRequest_segment, isRequest]
      exact Operation.yields_ofExcept _
    · exact ⟨{ table := "", segment := some segment, totalSegments := some total }, rfl, rfl, .nothing _⟩
  | ok request =>
    have isFetch := connection.fetch_scan (segmentOptions options total segment)
    rw [scanRequest_segment, isRequest] at isFetch
    obtain ⟨result, log, ⟨⟩, keeps, yields⟩ := Paging.read_keeps_prefix (PagedRead.asksOnce isFetch)
      (divides segment isSegment _ isFetch) (rfl : (connection.scanPaging options).keep = true) ()
    refine ⟨log, result, fun pages enough => ?_, ⟨request.ofSegment total segment, rfl, rfl, ?_⟩, keeps⟩
    · rw [readScan_segment isRequest]
      exact yields pages enough
    · exact Paging.pagesFrom_of_completes (yields _ (Nat.lt_succ_self _)).completes

/-- The exchanges of the segments that are read at once, and their outcomes in the order in which the
segments were done, against what each segment asks and comes to when it is read alone. -/
structure Unites (connection : Connection) (total : Nat) (logs : Nat → List Exchange)
    (results : Nat → Except Error Progress) (log : List (Exchange × Nat))
    (outcomes : List (Except Error Progress × Nat)) : Prop where
  /-- There are no exchanges but those of the segments. -/
  within : ∀ entry ∈ log, entry.2 < total
  /-- Each segment is done once. -/
  once : (outcomes.map (·.2)).Perm (List.range total)
  /-- Each segment asks what it asks alone, and is answered the same. -/
  apart : ∀ segment < total, Tasks.exchangesOf segment log = logs segment
  /-- There is an error if and only if the read of some segment alone has one, or an item that it keeps
  cannot be converted. -/
  fails : (∃ error, connection.joinSegments (outcomes.map (·.1)) = .error error) ↔
    ∃ segment < total, (∃ error, results segment = .error error) ∨
      ∃ item ∈ Progress.itemsOf (results segment),
        connection.registry.Unreadable connection.engine item
  /-- The items are those that the reads of the segments keep alone, each attributed to its entity if it
  has one, up to their order. -/
  items : ∀ items, connection.joinSegments (outcomes.map (·.1)) = .ok items →
    ∃ attributed, List.Forall₂ (connection.registry.Attributes connection.engine)
      ((List.range total).flatMap fun segment => Progress.itemsOf (results segment)) attributed ∧
      items.Perm attributed

section Schedules

variable {logs : Nat → List Exchange} {results : Nat → Except Error Progress}
  {request : ScanRequest} (isRequest : connection.scanRequest options = .ok request) {pages : Nat}
include isRequest

/-- What a segment has come to by some exchanges is what it comes to alone. -/
theorem ReadsSegment.eq_of_completes {listing : Listing} {segment : Nat} {log log' : List Exchange}
    {result outcome : Except Error Progress}
    (reads : connection.ReadsSegment options total listing answers segment log result)
    (enough : listing.rows.length < pages)
    (answered : ∀ exchange ∈ log', exchange.answer = answers exchange.call)
    (completes : (scanPages (request.ofSegment total segment) (connection.scanPaging options)
      pages).run.Completes log' outcome) :
    log' = log ∧ outcome = result := by
  obtain ⟨trace_eq, run_eq⟩ := completes.eq_trace answered
  obtain ⟨alone_trace, alone_run⟩ := reads.yields pages enough
  rw [readScan_segment isRequest] at alone_trace alone_run
  exact ⟨trace_eq.symm.trans alone_trace, run_eq.symm.trans (congrArg Prod.fst alone_run)⟩

theorem unites_of_schedule {pool : Pool (Except Error Progress)} {log : List (Exchange × Nat)}
    {outcomes : List (Except Error Progress × Nat)}
    (dialogues_eq : pool.dialogues = (List.range total).map fun segment =>
      (scanPages (request.ofSegment total segment) (connection.scanPaging options) pages).run)
    (reads : ∀ segment < total, connection.ReadsSegment options total (listing segment) answers segment
      (logs segment) (results segment))
    (enough : ∀ segment < total, (listing segment).rows.length < pages)
    (schedule : Tasks.Schedule (fun exchange => exchange.answer = answers exchange.call) pool.tasks log
      outcomes 0) :
    connection.Unites total logs results log outcomes := by
  have apart := schedule.apart pool.nodup_tasks
  obtain ⟨reached, completes, sameResults, -⟩ := Pool.exists_outcomes schedule
  rw [Pool.zipIdx_of_range dialogues_eq, List.forall₂_map_left_iff] at completes
  obtain ⟨within, once⟩ := Pool.numbers_of_range dialogues_eq apart
  have answered : ∀ segment, ∀ exchange ∈ Tasks.exchangesOf segment log,
      exchange.answer = answers exchange.call :=
    fun segment exchange isExchange => schedule.isAllowed _ (Tasks.mem_exchangesOf_iff.1 isExchange)
  -- a segment has made its own exchanges, so these and its outcome are what they are alone
  have alone : List.Forall₂ (fun segment outcome => Tasks.exchangesOf segment log = logs segment ∧
      outcome = results segment) (List.range total) reached := by
    refine ((List.forall₂_and_left _ _).2 ⟨fun _ => List.mem_range.1, completes⟩).imp ?_
    rintro segment outcome ⟨isSegment, completes⟩
    exact (reads segment isSegment).eq_of_completes isRequest (enough segment isSegment)
      (answered segment) completes
  have results_eq : (List.range total).map results = reached := by
    rw [← List.forall₂_eq_eq_eq, List.forall₂_map_left_iff]
    exact alone.imp fun _ _ both => both.2.symm
  have same : (outcomes.map (·.1)).Perm ((List.range total).map results) := results_eq ▸ sameResults
  refine ⟨within, once, ?_, ?_, ?_⟩
  · intro segment isSegment
    obtain ⟨_, log_eq, -⟩ := exists_forall₂_iff.1 ⟨_, alone⟩ segment (List.mem_range.2 isSegment)
    exact log_eq
  · rw [joinSegments_fails_iff]
    constructor
    · rintro ⟨result, isResult, spoils⟩
      obtain ⟨segment, isSegment, rfl⟩ := List.mem_map.1 (same.mem_iff.1 isResult)
      exact ⟨segment, List.mem_range.1 isSegment, spoils⟩
    · rintro ⟨segment, isSegment, spoils⟩
      exact ⟨_, same.mem_iff.2 (List.mem_map_of_mem (List.mem_range.2 isSegment)), spoils⟩
  · intro items joined
    -- the order in which the segments are done is the order of their items
    have sameItems := (same.flatMap_right Progress.itemsOf).trans (.of_eq (List.flatMap_map ..))
    obtain ⟨attributed, attributes, isPerm⟩ :=
      List.perm_comp_forall₂ sameItems.symm (joinSegments_eq_ok joined)
    exact ⟨attributed, attributes, isPerm.symm⟩

end Schedules

/-- However a table is divided into segments, whatever the options and the number of dialogues that may
be under way, and in whatever order the segments go on and are done: each segment of at least one is
read once, from its start and by its own exchanges.  A parallel scan has an error if and only if the
read of some segment alone has one, or an item that it keeps cannot be converted; otherwise its items
are those that the reads of the segments keep alone, each attributed to its entity.  All this is fixed
before the order is. -/
theorem parallelScan_unites (connection : Connection) (segments : Int) (options : ScanOptions)
    (listing : Nat → Listing) (answers : (call : Call) → Except Error call.Answer)
    (divides : connection.Divides options (segmentCount segments) listing answers) :
    ∃ logs results,
      (∀ segment < segmentCount segments, connection.ReadsSegment options (segmentCount segments)
        (listing segment) answers segment (logs segment) (results segment)) ∧
      ∀ pages, (∀ segment < segmentCount segments, (listing segment).rows.length < pages) →
        match connection.segmentScans segments options pages with
        | .error error => ∀ segment < segmentCount segments, results segment = .error error
        | .ok pool => pool.Certainly (fun exchange => exchange.answer = answers exchange.call)
            (connection.Unites (segmentCount segments) logs results) := by
  have alone : ∀ segment, ∃ log result, segment < segmentCount segments →
      connection.ReadsSegment options (segmentCount segments) (listing segment) answers segment log
        result := by
    intro segment
    by_cases isSegment : segment < segmentCount segments
    · obtain ⟨log, result, reads⟩ := exists_readsSegment divides isSegment
      exact ⟨log, result, fun _ => reads⟩
    · exact ⟨[], .error (.missingTable "*"), fun isSegment' => absurd isSegment' isSegment⟩
  choose logs results reads using alone
  refine ⟨logs, results, reads, fun pages enough => ?_⟩
  rw [segmentScans_eq]
  cases isRequest : connection.scanRequest options with
  | error error =>
    intro segment isSegment
    have yields := (reads segment isSegment).yields pages (enough segment isSegment)
    rw [readScan, scanRequest_segment, isRequest] at yields
    exact congrArg Prod.fst yields.2.symm
  | ok request =>
    refine Pool.certainly_of_schedule (fun call => ⟨answers call, rfl⟩) fun log outcomes schedule => ?_
    exact unites_of_schedule isRequest rfl reads enough schedule

end Segments

end Connection

/-! ## Notes in two segments -/

def Listing.segmentAnswers (listing : Nat → Listing) : (call : Call) → Except Error call.Answer
  | .scan request => .ok ((listing (request.segment.getD 0).toNat).page request.start 1)
  | _ => .error (.missingTable "*")

theorem Connection.divides_segmentAnswers (connection : Connection) (options : ScanOptions) (total : Nat)
    (listing : Nat → Listing) :
    connection.Divides options total listing (Listing.segmentAnswers listing) := by
  intro segment _ fetch isFetch
  rw [fetch_scan, scanRequest_segment, Functor.map_map] at isFetch
  obtain ⟨request, -, rfl⟩ := map_eq_ok.1 isFetch
  rintro ⟨⟩ cursor size page - someItem answered
  obtain rfl := Except.ok.inj answered
  exact Listing.offers_page (Nat.le_refl 1) someItem

def noteSegments : Nat → Listing
  | 0 => ⟨[noteRow "1" true, noteRow "2" false], by decide +kernel⟩
  | _ => ⟨[noteRow "3" true, noteRow "4" true], by decide +kernel⟩

def logicalNote (id : String) : LogicalItem :=
  .known "NOTE" (.ofList [("book", .string "b"), ("id", .string id)])

def readSegmentOfNotes (segment : Nat) : Except Error Progress :=
  ((noteConnection.readScan (Connection.segmentOptions {} 2 segment) 3).run.run
    (.atRest (Listing.segmentAnswers noteSegments)) ()).1

theorem isOk_readSegmentOfNotes : ∀ segment < 2, (readSegmentOfNotes segment).isOk = true := by
  decide +kernel

theorem toLogicalItems_readSegmentOfNotes :
    noteConnection.toLogicalItems
        ((List.range 2).flatMap fun segment => Progress.itemsOf (readSegmentOfNotes segment)) =
      .ok [logicalNote "1", logicalNote "3", logicalNote "4"] := by
  decide +kernel

/-- Two segments of notes, each read page by page: the notes that pass, whichever segment goes on when. -/
theorem parallelScan_unites_notes : ∃ pool, noteConnection.segmentScans 2 {} 3 = .ok pool ∧
    pool.Certainly (fun exchange => exchange.answer = Listing.segmentAnswers noteSegments exchange.call)
      fun _ outcomes => ∃ items, noteConnection.joinSegments (outcomes.map (·.1)) = .ok items ∧
        items.Perm [logicalNote "1", logicalNote "3", logicalNote "4"] := by
  obtain ⟨logs, results, reads, certain⟩ := noteConnection.parallelScan_unites 2 {} noteSegments _
    (noteConnection.divides_segmentAnswers {} _ noteSegments)
  have isShort : ∀ segment, (noteSegments segment).rows.length < 3 := by
    rintro (_ | segment) <;> exact Nat.lt_succ_self 2
  have results_eq : ∀ segment < 2, results segment = readSegmentOfNotes segment := by
    intro segment isSegment
    exact congrArg Prod.fst ((reads segment isSegment).yields 3 (isShort segment)).2.symm
  have noError : ∀ segment < 2, ∀ error, results segment ≠ .error error := by
    intro segment isSegment error failed
    have isOk := isOk_readSegmentOfNotes segment isSegment
    rw [← results_eq segment isSegment, failed] at isOk
    cases isOk
  have certain := certain 3 fun segment _ => isShort segment
  cases isPool : noteConnection.segmentScans 2 {} 3 with
  | error error =>
    rw [isPool] at certain
    exact absurd (certain 0 (by decide)) (noError 0 (by decide) error)
  | ok pool =>
    rw [isPool] at certain
    refine ⟨pool, rfl, certain.imp fun log outcomes unites => ?_⟩
    cases joined : noteConnection.joinSegments (outcomes.map (·.1)) with
    | error error =>
      obtain ⟨segment, isSegment, ⟨error, failed⟩ | ⟨item, -, unreadable⟩⟩ := unites.fails.1 ⟨error, joined⟩
      · exact absurd failed (noError segment isSegment error)
      · exact absurd unreadable (Registry.not_unreadable_lenient _ _)
    | ok items =>
      obtain ⟨attributed, attributes, isPerm⟩ := unites.items items joined
      have kept_eq : ((List.range 2).flatMap fun segment => Progress.itemsOf (results segment)) =
          (List.range 2).flatMap fun segment => Progress.itemsOf (readSegmentOfNotes segment) :=
        List.flatMap_congr fun segment isSegment =>
          congrArg Progress.itemsOf (results_eq segment (List.mem_range.1 isSegment))
      have converted := Connection.toLogicalItems_eq_ok_iff.2 attributes
      obtain rfl := Except.ok.inj
        ((kept_eq ▸ converted).symm.trans toLogicalItems_readSegmentOfNotes)
      exact ⟨items, rfl, isPerm⟩

end SingleTable
