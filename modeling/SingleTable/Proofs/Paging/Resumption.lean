import SingleTable.Connection.Scans
import SingleTable.Proofs.Entity.Attribution
import SingleTable.Proofs.Expression.Bindings
import SingleTable.Proofs.Paging.Listing

/-!
# Reading on from a cursor

A find or a scan stops at its limits and returns a cursor.  Calls in turn, each from the cursor of
the one before, together return the matching rows once and in order, however the store cuts the
rows into pages and wherever the limits of the calls fall (`PagedRead.series_exhausts`).
-/

namespace SingleTable

/-- The limits of one call. -/
structure Stretch where
  limit : Option Nat := none
  effort : Option EffortLimit := none

/-- A read that returns a cursor.  Its options are those that all calls share: limits and cursors
are given with each call. -/
inductive PagedRead where
  | find (typeName : String) (partition : Partition) (options : QueryOptions)
  | scanFind (typeName : String) (options : ScanOptions)
  | scan (options : ScanOptions)

namespace PagedRead

/-- What a read returns for an item: a value of the caller's type, unless it reads a whole table. -/
def Element (α : Type) : PagedRead → Type
  | find _ _ _ | scanFind _ _ => α
  | scan _ => LogicalItem

variable (α : Type) [Storable α]

def element (connection : Connection) : (read : PagedRead) → Item → Except Error (read.Element α)
  | find typeName _ _, item | scanFind typeName _, item => do
    (← connection.entity typeName).readValue (α := α) connection.engine item
  | scan _, item => connection.toLogicalItem item

def fetch (connection : Connection) :
    PagedRead → Except Error (Option Item → Nat → Operation Page)
  | find typeName partition options => do
    let request ← (← connection.entity typeName).queryRequest partition options
    return fun start size => Operation.ask (.query { request with limit := some size, start })
  | scanFind typeName options => do
    let request ← (← connection.entity typeName).scanRequest options
    return fun start size => Operation.ask (.scan { request with limit := some size, start })
  | scan options => do
    let request ← (← connection.scanTable).scanRequest none options
    return fun start size => Operation.ask (.scan { request with limit := some size, start })

def call (connection : Connection) (pages : Nat) (stretch : Stretch) (cursor : Option Item) :
    (read : PagedRead) → Operation (Found (read.Element α))
  | find typeName partition options =>
    connection.find (α := α) typeName partition
      { options with limit := stretch.limit, effort := stretch.effort, cursor } pages
  | scanFind typeName options =>
    connection.scanFind (α := α) typeName
      { options with limit := stretch.limit, effort := stretch.effort, cursor } pages
  | scan options =>
    connection.scan { options with limit := stretch.limit, effort := stretch.effort, cursor } pages

/-- Calls in turn, each from the cursor of the one before, until there is none.  The result has the
items of all calls and the cursor of the last. -/
def series (connection : Connection) (pages : Nat) (read : PagedRead) :
    Stretch → List Stretch → Option Item → Operation (Found (read.Element α))
  | stretch, [], cursor => read.call α connection pages stretch cursor
  | stretch, second :: later, cursor => do
    let found ← read.call α connection pages stretch cursor
    match found.cursor with
    | none => return found
    | some next => do
      let others ← series connection pages read second later (some next)
      return ⟨found.items ++ others.items, others.cursor⟩

end PagedRead

/-! ## Requests and cursors -/

/-- A cursor is where a request starts, and changes nothing else of it; limits are no part of it. -/
theorem Entity.queryRequest_resumed (entity : Entity) (partition : Partition)
    (options : QueryOptions) (limit : Option Nat) (effort : Option EffortLimit)
    (cursor : Option Item) :
    entity.queryRequest partition { options with limit, effort, cursor } =
      (fun request => { request with start := cursor }) <$> entity.queryRequest partition options := by
  unfold Entity.queryRequest
  rw [map_bind]
  refine bind_congr fun (part, sortKey) => ?_
  dsimp only
  rw [map_bind]
  refine bind_congr fun value => ?_
  rw [map_bind]
  refine bind_congr fun sort => ?_
  rw [map_bind]
  refine bind_congr fun ((keyCondition, filter, projection), bindings) => ?_
  rfl

/-- Scans with the same index, condition and selection differ only in where they read. -/
theorem Table.scanRequest_elsewhere (table : Table) (filter : Option Condition)
    (options others : ScanOptions) (sameIndex : others.index = options.index)
    (sameCondition : others.condition = options.condition) (sameSelect : others.select = options.select) :
    table.scanRequest filter others =
      (fun request => { request with
        segment := others.segment
        totalSegments := others.totalSegments
        start := others.cursor }) <$> table.scanRequest filter options := by
  unfold Table.scanRequest
  dsimp only
  rw [sameIndex, sameCondition, sameSelect]
  cases options.index with
  | none =>
    dsimp only
    rw [map_bind]
    refine bind_congr fun ((filter, projection), bindings) => ?_
    rfl
  | some index =>
    dsimp only
    split
    · rfl
    · rw [map_bind]
      refine bind_congr fun ((filter, projection), bindings) => ?_
      rfl

theorem Table.scanRequest_resumed (table : Table) (filter : Option Condition) (options : ScanOptions)
    (limit : Option Nat) (effort : Option EffortLimit) (cursor : Option Item) :
    table.scanRequest filter { options with limit, effort, cursor } =
      (fun request => { request with start := cursor }) <$> table.scanRequest filter options := by
  have resumed :=
    table.scanRequest_elsewhere filter options { options with limit, effort, cursor } rfl rfl rfl
  have placed := congrArg (Functor.map fun request : ScanRequest => { request with start := cursor })
    (table.scanRequest_elsewhere filter options options rfl rfl rfl)
  rw [Functor.map_map] at placed
  exact resumed.trans placed.symm

theorem Entity.scanRequest_resumed (entity : Entity) (options : ScanOptions) (limit : Option Nat)
    (effort : Option EffortLimit) (cursor : Option Item) :
    entity.scanRequest { options with limit, effort, cursor } =
      (fun request => { request with start := cursor }) <$> entity.scanRequest options := by
  have resumed := entity.table.scanRequest_resumed (some (entity.ownItems options.condition)) options
    limit effort cursor
  unfold Entity.scanRequest
  dsimp only at resumed ⊢
  rw [resumed]
  cases options.index with
  | none => rfl
  | some index =>
    dsimp only
    split <;> rfl

/-! ## Calls -/

namespace PagedRead

variable (α : Type) [Storable α] {connection : Connection} {read : PagedRead}
  {fetch : Option Item → Nat → Operation Page} (isFetch : read.fetch connection = .ok fetch)
include isFetch

/-- A call reads pages, and then converts the items it has kept. -/
theorem call_eq (pages : Nat) (stretch : Stretch) (cursor : Option Item) :
    read.call α connection pages stretch cursor =
      (Paging.mk (stretch.limit.getD connection.config.defaultQueryLimit) stretch.effort true).read fetch
          cursor pages >>= fun progress =>
        Operation.ofExcept (progress.items.mapM (read.element α connection)) >>= fun items =>
          pure ⟨items, progress.cursor⟩ := by
  have skip : ∀ {α β : Type} (value : α) (next : α → Operation β),
      (do let value ← (Except.ok value : Except Error α); next value) = next value :=
    fun _ _ => rfl
  cases read with
  | find typeName partition options =>
    obtain ⟨entity, isEntity, rest⟩ := bind_eq_ok.1 isFetch
    obtain ⟨request, isRequest, fetch_eq⟩ := bind_eq_ok.1 rest
    obtain rfl := Except.ok.inj fetch_eq
    have element_eq : element α connection (find typeName partition options) =
        entity.readValue (α := α) connection.engine := by
      funext item
      simp only [element, isEntity]
      rfl
    have resumed := entity.queryRequest_resumed partition options stretch.limit stretch.effort cursor
    rw [isRequest] at resumed
    rw [element_eq]
    simp only [call, Connection.find, isEntity, skip, resumed, Except.map_ok]
    rfl
  | scanFind typeName options =>
    obtain ⟨entity, isEntity, rest⟩ := bind_eq_ok.1 isFetch
    obtain ⟨request, isRequest, fetch_eq⟩ := bind_eq_ok.1 rest
    obtain rfl := Except.ok.inj fetch_eq
    have element_eq : element α connection (scanFind typeName options) =
        entity.readValue (α := α) connection.engine := by
      funext item
      simp only [element, isEntity]
      rfl
    have resumed := entity.scanRequest_resumed options stretch.limit stretch.effort cursor
    rw [isRequest] at resumed
    rw [element_eq]
    simp only [call, Connection.scanFind, isEntity, skip, resumed, Except.map_ok]
    rfl
  | scan options =>
    obtain ⟨table, isTable, rest⟩ := bind_eq_ok.1 isFetch
    obtain ⟨request, isRequest, fetch_eq⟩ := bind_eq_ok.1 rest
    obtain rfl := Except.ok.inj fetch_eq
    have resumed := table.scanRequest_resumed none options stretch.limit stretch.effort cursor
    rw [isRequest] at resumed
    simp only [call, Connection.scan, isTable, skip, resumed, Except.map_ok]
    rfl

/-- What calls have reached: the items of the rows up to a cursor, if all of them can be converted. -/
def reached (connection : Connection) (read : PagedRead) (rows : List Row) (next : Option Item) :
    Except Error (Found (read.Element α)) :=
  (fun items => ⟨items, next⟩) <$> (Row.found rows).mapM (read.element α connection)

omit isFetch in
theorem reached_append (rows others : List Row) (middle next : Option Item) :
    reached α connection read (rows ++ others) next =
      reached α connection read rows middle >>= fun found =>
        (fun rest => ⟨found.items ++ rest.items, rest.cursor⟩) <$>
          reached α connection read others next := by
  simp only [reached, Row.found_append, List.mapM_append]
  cases (Row.found rows).mapM (read.element α connection) with
  | error error => rfl
  | ok items =>
    cases (Row.found others).mapM (read.element α connection) with
    | error error => rfl
    | ok rest => rfl

theorem asksOnce : Paging.AsksOnce fetch := by
  intro σ store cursor size state
  cases read with
  | find typeName partition options =>
    obtain ⟨entity, -, rest⟩ := bind_eq_ok.1 isFetch
    obtain ⟨request, -, fetch_eq⟩ := bind_eq_ok.1 rest
    obtain rfl := Except.ok.inj fetch_eq
    exact ⟨_, rfl⟩
  | scanFind typeName options =>
    obtain ⟨entity, -, rest⟩ := bind_eq_ok.1 isFetch
    obtain ⟨request, -, fetch_eq⟩ := bind_eq_ok.1 rest
    obtain rfl := Except.ok.inj fetch_eq
    exact ⟨_, rfl⟩
  | scan options =>
    obtain ⟨table, -, rest⟩ := bind_eq_ok.1 isFetch
    obtain ⟨request, -, fetch_eq⟩ := bind_eq_ok.1 rest
    obtain rfl := Except.ok.inj fetch_eq
    exact ⟨_, rfl⟩

variable {σ : Type} {store : Store σ} {listing : Listing} (served : listing.IsServed store fetch)
include served

theorem call_reaches {stretch : Stretch}
    (wanted : 1 ≤ stretch.limit.getD connection.config.defaultQueryLimit) {cursor : Option Item}
    (known : listing.Knows cursor) (state : σ) :
    ∃ evaluated next log after, listing.Knows next ∧
      listing.behind cursor = evaluated ++ listing.unread next ∧
      log.length + listing.pagesLeft next ≤ (listing.behind cursor).length + 1 ∧ 1 ≤ log.length ∧
      ∀ pages, (listing.behind cursor).length < pages →
        (read.call α connection pages stretch cursor).Yields store state log
          (reached α connection read evaluated next) after := by
  obtain ⟨final, log, after, advances, someCall, yields⟩ :=
    Paging.read_advances (asksOnce isFetch) served
      (rfl : (Paging.mk _ stretch.effort true).keep = true) wanted known state
  obtain ⟨knownFinal, ⟨evaluated, unread_eq, items_eq⟩, calls⟩ := advances
  have items_eq : final.items = Row.found evaluated := items_eq
  refine ⟨evaluated, final.cursor, log, after, knownFinal, unread_eq, calls,
    List.length_pos_iff.2 someCall, ?_⟩
  intro pages enough
  rw [call_eq α isFetch, ← List.append_nil log, reached, ← items_eq]
  exact (yields pages enough).bind ((Operation.yields_ofExcept _).map _)

/-- The calls of a series reach what was before the cursor they end with, in at most as many
exchanges as there are rows, and one more.  They come to the end unless there are too few calls. -/
theorem series_reaches {stretch : Stretch} {later : List Stretch}
    (wanted : ∀ each ∈ stretch :: later, 1 ≤ each.limit.getD connection.config.defaultQueryLimit)
    {cursor : Option Item} (known : listing.Knows cursor) (state : σ) :
    ∃ evaluated next log after,
      listing.behind cursor = evaluated ++ listing.unread next ∧
      log.length + listing.pagesLeft next ≤ (listing.behind cursor).length + 1 ∧
      (next = none ∨ (stretch :: later).length ≤ log.length) ∧
      ∀ pages, (listing.behind cursor).length < pages →
        (read.series α connection pages stretch later cursor).Yields store state log
          (reached α connection read evaluated next) after := by
  induction later generalizing stretch cursor state with
  | nil =>
    obtain ⟨evaluated, next, log, after, -, split, calls, someCall, yields⟩ :=
      call_reaches α isFetch served (wanted stretch (by simp)) known state
    exact ⟨evaluated, next, log, after, split, calls, .inr someCall, yields⟩
  | cons second later inductionHypothesis =>
    obtain ⟨evaluated, next, log, middle, knownNext, split, calls, someCall, yields⟩ :=
      call_reaches α isFetch served (wanted stretch (by simp)) known state
    cases isReached : reached α connection read evaluated next with
    | error error =>
      have fails : reached α connection read (listing.behind cursor) none = .error error := by
        rw [split, reached_append α _ _ next, isReached]
        rfl
      refine ⟨listing.behind cursor, none, log, middle, by simp [Listing.unread], ?_, .inl rfl, ?_⟩
      · simp only [Listing.pagesLeft, if_true]
        omega
      · intro pages enough
        have own := yields pages enough
        rw [isReached] at own
        rw [fails, series]
        exact own.bind_error
    | ok found =>
      obtain ⟨items, isItems, rfl⟩ := map_eq_ok.1 isReached
      cases next with
      | none =>
        refine ⟨evaluated, none, log, middle, split, calls, .inl rfl, ?_⟩
        intro pages enough
        have own := yields pages enough
        rw [isReached] at own ⊢
        rw [series, ← List.append_nil log]
        exact own.bind (Operation.yields_pure _)
      | some key =>
        obtain ⟨evaluated', next', log', after, split', calls', isEnd, yields'⟩ :=
          inductionHypothesis (fun each isMember => wanted each (List.mem_cons_of_mem _ isMember))
            knownNext middle
        have left_eq : listing.pagesLeft (some key) = (listing.behind (some key)).length + 1 := rfl
        have unread_eq : listing.unread (some key) = listing.behind (some key) := rfl
        have length_eq := congrArg List.length split
        rw [unread_eq, List.length_append] at length_eq
        refine ⟨evaluated ++ evaluated', next', log ++ log', after, ?_, ?_, ?_, ?_⟩
        · rw [split, unread_eq, split', List.append_assoc]
        · rw [List.length_append]
          omega
        · refine isEnd.imp_right fun many => ?_
          simp only [List.length_cons, List.length_append] at many ⊢
          omega
        · intro pages enough
          have own := yields pages enough
          have rest := yields' pages (by omega)
          rw [isReached] at own
          rw [reached_append α _ _ (some key), isReached, series]
          exact own.bind (rest.map _)

/-- However the store cuts a listing into pages, and whatever the limits of the calls: the exchanges
and the result are the same for every bound that allows for a page more than there are rows, so the
loops end by themselves.  When there is no cursor any more, the calls have returned the rows that
match, in order, each once; and there is none after more calls than there are rows. -/
theorem series_exhausts (stretch : Stretch) (later : List Stretch)
    (wanted : ∀ each ∈ stretch :: later, 1 ≤ each.limit.getD connection.config.defaultQueryLimit)
    {cursor : Option Item} (known : listing.Knows cursor) (state : σ) :
    ∃ log result, log.length ≤ (listing.behind cursor).length + 1 ∧
      (∀ pages, (listing.behind cursor).length < pages →
        (read.series α connection pages stretch later cursor).run.trace store state = log ∧
        ((read.series α connection pages stretch later cursor).run.run store state).1 = result) ∧
      (∀ items, result = .ok ⟨items, none⟩ →
        (Row.found (listing.behind cursor)).mapM (read.element α connection) = .ok items) ∧
      ((listing.behind cursor).length < (stretch :: later).length →
        result = (fun items => ⟨items, none⟩) <$>
          (Row.found (listing.behind cursor)).mapM (read.element α connection)) := by
  obtain ⟨evaluated, next, log, after, split, calls, isEnd, yields⟩ :=
    series_reaches α isFetch served wanted known state
  have all : next = none → evaluated = listing.behind cursor := by
    rintro rfl
    rw [split, Listing.unread, if_pos rfl, List.append_nil]
  refine ⟨log, reached α connection read evaluated next, by omega, ?_, ?_, ?_⟩
  · intro pages enough
    obtain ⟨trace_eq, run_eq⟩ := yields pages enough
    exact ⟨trace_eq, congrArg Prod.fst run_eq⟩
  · intro items isResult
    obtain ⟨items', areItems, found_eq⟩ := map_eq_ok.1 isResult
    obtain ⟨rfl, rfl⟩ := Found.mk.inj found_eq
    rwa [all rfl] at areItems
  · intro many
    have atEnd : next = none := by
      by_contra someCursor
      have left := isEnd.resolve_left someCursor
      rw [Listing.pagesLeft, if_neg someCursor] at calls
      omega
    rw [reached, all atEnd, atEnd]

end PagedRead

/-! ## Notes of a book -/

/-- A store of a listing answers queries with pages of it, however it cuts them. -/
theorem Listing.isServed_store (listing : Listing) (cut : Nat → Nat) (request : QueryRequest) :
    listing.IsServed (listing.store cut) fun start size =>
      Operation.ask (.query { request with limit := some size, start }) := by
  intro number cursor size _ someItem
  refine ⟨listing.page cursor (max 1 (min (cut number) size)), rfl, offers_page ?_ ?_⟩
  · omega
  · omega

def noteEntity : Entity where
  name := "NOTE"
  table := { name := "T", partitionKey := "PK", sortKey := some "SK", indexes := ∅ }
  attributes := [{ name := "book", type := .string }, { name := "id", type := .string }]
  key := ⟨⟨"PK", .text "BOOK#\x7b\x7bbook\x7d\x7d"⟩, some ⟨"SK", .text "NOTE#\x7b\x7bid\x7d\x7d"⟩⟩
  indexes := []
  uniques := []

def noteConnection : Connection where
  registry := ⟨[⟨"Note", noteEntity⟩]⟩

def noteDocument (id : String) : Document := .object [("book", .string "b"), ("id", .string id)]

def noteRow (id : String) (passes : Bool) : Row where
  key := .ofList [("PK", .string "BOOK#b"), ("SK", .string ("NOTE#" ++ id))]
  item := .ofList [("PK", .string "BOOK#b"), ("SK", .string ("NOTE#" ++ id)), ("book", .string "b"),
    ("id", .string id), ("__et", .string "NOTE")]
  passes

def notes : Listing where
  rows := [noteRow "1" true, noteRow "2" false, noteRow "3" true, noteRow "4" true]
  nodup := by decide +kernel

def readNotes : PagedRead := .find "Note" (.attributes (.ofList [("book", .string "b")])) {}

theorem mapM_element_notes : (Row.found notes.rows).mapM (readNotes.element Document noteConnection) =
    .ok [noteDocument "1", noteDocument "3", noteDocument "4"] := by
  have logical : ∀ id ∈ ["1", "3", "4"], noteEntity.toLogical (noteRow id true).item =
      .ofList [("book", .string "b"), ("id", .string id)] := by decide +kernel
  have element_eq : ∀ item, readNotes.element Document noteConnection item = noteEntity.toDocument item := by
    have isEntity : noteConnection.entity "Note" = .ok noteEntity := rfl
    intro item
    unfold readNotes
    rw [PagedRead.element, isEntity]
    rfl
  have converted : ∀ id ∈ ["1", "3", "4"],
      readNotes.element Document noteConnection (noteRow id true).item = .ok (noteDocument id) := by
    intro id isNote
    rw [element_eq, Entity.toDocument, Entity.readValue_of_readable (Entity.readable_lenient _ _),
      logical id isNote]
    simp only [List.mem_cons, List.not_mem_nil, or_false] at isNote
    rcases isNote with rfl | rfl | rfl <;> rfl
  have found_eq : Row.found notes.rows =
      [(noteRow "1" true).item, (noteRow "3" true).item, (noteRow "4" true).item] := rfl
  rw [found_eq]
  simp only [List.mapM_cons, List.mapM_nil, converted "1" (by simp), converted "3" (by simp),
    converted "4" (by simp)]
  rfl

/-- A limit that cuts a page, an effort that is spent at once, and calls without own limits. -/
theorem series_exhausts_notes : ∃ log, log.length ≤ 5 ∧ ∀ pages, 4 < pages →
    let calls := readNotes.series Document noteConnection pages ⟨some 1, none⟩
      [⟨some 3, some (.scanned 1)⟩, {}, {}, {}] none
    calls.run.trace (notes.store (· % 2 + 1)) 0 = log ∧
      (calls.run.run (notes.store (· % 2 + 1)) 0).1 =
        .ok ⟨[noteDocument "1", noteDocument "3", noteDocument "4"], none⟩ := by
  cases isFetch : readNotes.fetch noteConnection with
  | error error =>
    have fetched : (match readNotes.fetch noteConnection with
        | .ok _ => true
        | .error _ => false) = true := by decide +kernel
    rw [isFetch] at fetched
    cases fetched
  | ok fetch =>
    obtain ⟨entity, -, rest⟩ := bind_eq_ok.1 isFetch
    obtain ⟨request, -, fetch_eq⟩ := bind_eq_ok.1 rest
    have served : notes.IsServed (notes.store (· % 2 + 1)) fetch := by
      rw [← Except.ok.inj fetch_eq]
      exact notes.isServed_store _ request
    obtain ⟨log, result, isShort, ends, -, finished⟩ :=
      PagedRead.series_exhausts Document isFetch served ⟨some 1, none⟩ [⟨some 3, some (.scanned 1)⟩, {}, {}, {}]
        (by simp [noteConnection]) (show notes.Knows none by simp [Listing.Knows]) 0
    have result_eq := finished (by decide)
    refine ⟨log, isShort, fun pages enough => ?_⟩
    obtain ⟨trace_eq, run_eq⟩ := ends pages enough
    refine ⟨trace_eq, run_eq.trans (result_eq.trans ?_)⟩
    exact congrArg _ mapM_element_notes

end SingleTable
