import SingleTable.Connection.Transactions
import SingleTable.Proofs.Store.Log

/-!
# How pending writes become one transaction

Executing pending writes asks the store for the items they wait for, one after the other, and then
at most once for a transaction.  `Coordinated` lists the ways this can go; `executeWrites_coordinated`
says that there are no others, whatever the store answers, and when the store is asked to write.
-/

namespace SingleTable

def KeyRef.consistentRead (item : KeyRef) : GetRequest :=
  { table := item.table, key := item.key, consistent := true }

namespace PendingWrite

/-- The reads made for a write, and the operations it comes to. -/
inductive Expands : PendingWrite → List Exchange → List WriteOperation → Prop where
  | direct (operations : List WriteOperation) : Expands (.direct operations) [] operations
  | afterRead {entity : String} {item : KeyRef}
      {resolve : Option Item → Except Error (List WriteOperation)} {prior : Option Item}
      {operations : List WriteOperation} (resolved : resolve prior = .ok operations) :
      Expands (.afterRead entity item resolve) [⟨.get item.consistentRead, .ok prior⟩] operations

/-- The reads made for a write that comes to nothing, and the error. -/
inductive Fails : PendingWrite → List Exchange → Error → Prop where
  | read {entity : String} {item : KeyRef}
      {resolve : Option Item → Except Error (List WriteOperation)} (error : Error) :
      Fails (.afterRead entity item resolve) [⟨.get item.consistentRead, .error error⟩] error
  | resolve {entity : String} {item : KeyRef}
      {resolve : Option Item → Except Error (List WriteOperation)} {prior : Option Item} {error : Error}
      (failed : resolve prior = .error error) :
      Fails (.afterRead entity item resolve) [⟨.get item.consistentRead, .ok prior⟩] error

/-- The reads made for several writes, and the operations they come to, in order. -/
inductive ExpandAll : List PendingWrite → List Exchange → List WriteOperation → Prop where
  | nil : ExpandAll [] [] []
  | cons {write : PendingWrite} {writes : List PendingWrite} {reads moreReads : List Exchange}
      {operations moreOperations : List WriteOperation} (first : write.Expands reads operations)
      (others : ExpandAll writes moreReads moreOperations) :
      ExpandAll (write :: writes) (reads ++ moreReads) (operations ++ moreOperations)

def read? : PendingWrite → Option Call
  | direct _ => none
  | afterRead _ item _ => some (.get item.consistentRead)

theorem Expands.calls {write : PendingWrite} {reads : List Exchange}
    {operations : List WriteOperation} (expands : write.Expands reads operations) :
    reads.map (·.call) = write.read?.toList := by
  cases expands <;> rfl

theorem Fails.calls {write : PendingWrite} {reads : List Exchange} {error : Error}
    (fails : write.Fails reads error) : reads.map (·.call) = write.read?.toList := by
  cases fails <;> rfl

theorem ExpandAll.calls {writes : List PendingWrite} {reads : List Exchange}
    {operations : List WriteOperation} (expand : ExpandAll writes reads operations) :
    reads.map (·.call) = writes.filterMap read? := by
  induction expand with
  | nil => rfl
  | @cons write _ _ _ _ _ first _ inductionHypothesis =>
    rw [List.map_append, first.calls, inductionHypothesis, List.filterMap_cons]
    cases write <;> rfl

theorem call_of_read? {write : PendingWrite} {call : Call} (waits : write.read? = some call) :
    ∃ request, call = .get request := by
  cases write with
  | direct _ => cases waits
  | afterRead _ item _ => exact ⟨item.consistentRead, (Option.some.inj waits).symm⟩

theorem Fails.isRead {write : PendingWrite} {reads : List Exchange} {error : Error}
    (fails : write.Fails reads error) {exchange : Exchange} (isExchange : exchange ∈ reads) :
    ∃ request, exchange.call = .get request := by
  have isCall := List.mem_map_of_mem isExchange (f := Exchange.call)
  rw [fails.calls] at isCall
  exact call_of_read? (Option.mem_toList.1 isCall)

theorem ExpandAll.isRead {writes : List PendingWrite} {reads : List Exchange}
    {operations : List WriteOperation} (expand : ExpandAll writes reads operations)
    {exchange : Exchange} (isExchange : exchange ∈ reads) : ∃ request, exchange.call = .get request := by
  have isCall : exchange.call ∈ reads.map (·.call) := List.mem_map_of_mem isExchange
  rw [expand.calls] at isCall
  obtain ⟨write, -, waits⟩ := List.mem_filterMap.1 isCall
  exact call_of_read? waits

end PendingWrite

open PendingWrite (ExpandAll)

def CancellationReason.reportAt (operations : List WriteOperation) (index : Nat)
    (reason : CancellationReason) : CancelledOperation where
  index := index
  code := reason.code
  message := reason.message
  operation := (operations[index]?.map (·.display)).getD ""

/-- The ways in which pending writes are executed under a limit: the exchanges and the result. -/
inductive Coordinated (limit : Nat) (writes : List PendingWrite) :
    List Exchange → Except Error Unit → Prop where
  /-- A write comes to nothing; those after it are not looked at, and nothing is written. -/
  | stopped {before after : List PendingWrite} {write : PendingWrite} {reads failing : List Exchange}
      {operations : List WriteOperation} {error : Error} (writes_eq : writes = before ++ write :: after)
      (expand : ExpandAll before reads operations) (fails : write.Fails failing error) :
      Coordinated limit writes (reads ++ failing) (.error error)
  /-- There is nothing to write. -/
  | empty {reads : List Exchange} (expand : ExpandAll writes reads []) :
      Coordinated limit writes reads (.ok ())
  /-- There is too much to write, and nothing is. -/
  | excess {reads : List Exchange} {operations : List WriteOperation}
      (expand : ExpandAll writes reads operations) (exceeds : limit < operations.length) :
      Coordinated limit writes reads
        (.error (.transactionTooLarge writes.length operations.length limit))
  /-- The transaction fails as a call. -/
  | refused {reads : List Exchange} {operations : List WriteOperation}
      (expand : ExpandAll writes reads operations) (isSome : operations ≠ [])
      (fits : operations.length ≤ limit) (error : Error) :
      Coordinated limit writes (reads ++ [⟨.transactWrite operations, .error error⟩]) (.error error)
  /-- The transaction is applied. -/
  | committed {reads : List Exchange} {operations : List WriteOperation}
      (expand : ExpandAll writes reads operations) (isSome : operations ≠ [])
      (fits : operations.length ≤ limit) :
      Coordinated limit writes (reads ++ [⟨.transactWrite operations, .ok .committed⟩]) (.ok ())
  /-- The transaction is cancelled, and each reason is reported with its operation. -/
  | cancelled {reads : List Exchange} {operations : List WriteOperation}
      (expand : ExpandAll writes reads operations) (isSome : operations ≠ [])
      (fits : operations.length ≤ limit) {reasons : List CancellationReason}
      {reported : List CancelledOperation}
      (reports : ∀ index : Nat, reported[index]? = reasons[index]?.map (·.reportAt operations index)) :
      Coordinated limit writes (reads ++ [⟨.transactWrite operations, .ok (.cancelled reasons)⟩])
        (.error (.transactionCancelled reported))

namespace Connection

/-! ## Reading what the writes wait for -/

def expand : PendingWrite → Operation (List WriteOperation)
  | .direct operations => return operations
  | .afterRead _ item operationsAfter => do
    let prior ← Operation.ask (.get item.consistentRead)
    Operation.ofExcept (operationsAfter prior)

theorem resolve_cons (write : PendingWrite) (writes : List PendingWrite) :
    resolve (write :: writes) = do
      let operations ← expand write
      let others ← resolve writes
      return operations ++ others := by
  cases write with
  | direct operations => rfl
  | afterRead entity item operationsAfter =>
    refine congrArg (Dialogue.ask (.get item.consistentRead)) (funext fun answer => ?_)
    cases answer with
    | error error => rfl
    | ok prior =>
      have goesOn : ∀ result : Except Error (List WriteOperation),
          (liftM result >>= fun operations => do return operations ++ (← resolve writes) :
            Operation (List WriteOperation)) =
          (Operation.ofExcept result >>= fun operations => do return operations ++ (← resolve writes)) :=
        fun _ => rfl
      exact goesOn _

theorem completes_expand_ok_iff {write : PendingWrite} {log : List Exchange}
    {operations : List WriteOperation} :
    (expand write).run.Completes log (.ok operations) ↔ write.Expands log operations := by
  constructor
  · intro completes
    cases write with
    | direct operations =>
      obtain ⟨rfl, same⟩ := Operation.completes_pure_iff.1 completes
      obtain rfl := Except.ok.inj same
      exact .direct operations
    | afterRead entity item operationsAfter =>
      obtain ⟨_, -, ⟨⟩⟩ | ⟨prior, first, second, rfl, asked, others⟩ :=
        Operation.completes_bind_iff.1 completes
      obtain rfl := Operation.completes_ask_iff.1 asked
      obtain ⟨rfl, resolved⟩ := Operation.completes_ofExcept_iff.1 others
      exact .afterRead resolved.symm
  · rintro (operations | ⟨resolved⟩)
    · exact .done _
    · exact Operation.completes_bind_iff.2 (.inr ⟨_, _, [], rfl, Operation.completes_ask_iff.2 rfl,
        Operation.completes_ofExcept_iff.2 ⟨rfl, resolved.symm⟩⟩)

theorem fails_of_completes_expand {write : PendingWrite} {log : List Exchange} {error : Error}
    (completes : (expand write).run.Completes log (.error error)) : write.Fails log error := by
  cases write with
  | direct operations =>
    obtain ⟨-, ⟨⟩⟩ := Operation.completes_pure_iff.1 completes
  | afterRead entity item operationsAfter =>
    obtain ⟨failure, asked, ⟨⟩⟩ | ⟨prior, first, second, rfl, asked, others⟩ :=
      Operation.completes_bind_iff.1 completes
    · obtain rfl := Operation.completes_ask_iff.1 asked
      exact .read error
    · obtain rfl := Operation.completes_ask_iff.1 asked
      obtain ⟨rfl, failed⟩ := Operation.completes_ofExcept_iff.1 others
      exact .resolve failed.symm

theorem completes_resolve_ok_iff {writes : List PendingWrite} {log : List Exchange}
    {operations : List WriteOperation} :
    (resolve writes).run.Completes log (.ok operations) ↔ ExpandAll writes log operations := by
  constructor
  · intro completes
    induction writes generalizing log operations with
    | nil =>
      obtain ⟨rfl, same⟩ := Operation.completes_pure_iff.1 completes
      obtain rfl := Except.ok.inj same
      exact .nil
    | cons write writes inductionHypothesis =>
      rw [resolve_cons] at completes
      obtain ⟨_, -, ⟨⟩⟩ | ⟨first, reads, rest, rfl, expanded, completes⟩ :=
        Operation.completes_bind_iff.1 completes
      obtain ⟨_, -, ⟨⟩⟩ | ⟨others, moreReads, none, rfl, resolved, completes⟩ :=
        Operation.completes_bind_iff.1 completes
      obtain ⟨rfl, same⟩ := Operation.completes_pure_iff.1 completes
      obtain rfl := Except.ok.inj same
      rw [List.append_nil]
      exact .cons (completes_expand_ok_iff.1 expanded) (inductionHypothesis resolved)
  · intro expand
    induction expand with
    | nil => exact .done _
    | @cons _ _ reads moreReads _ _ first _ inductionHypothesis =>
      rw [resolve_cons]
      refine Operation.completes_bind_iff.2
        (.inr ⟨_, reads, moreReads, rfl, completes_expand_ok_iff.2 first, ?_⟩)
      exact Operation.completes_bind_iff.2
        (.inr ⟨_, moreReads, [], (List.append_nil _).symm, inductionHypothesis, .done _⟩)

theorem stops_of_completes_resolve {writes : List PendingWrite} {log : List Exchange} {error : Error}
    (completes : (resolve writes).run.Completes log (.error error)) :
    ∃ before write after reads operations failing, writes = before ++ write :: after ∧
      ExpandAll before reads operations ∧ write.Fails failing error ∧ log = reads ++ failing := by
  induction writes generalizing log with
  | nil =>
    obtain ⟨-, ⟨⟩⟩ := Operation.completes_pure_iff.1 completes
  | cons write writes inductionHypothesis =>
    rw [resolve_cons] at completes
    obtain ⟨failure, failed, ⟨⟩⟩ | ⟨first, reads, rest, rfl, expanded, completes⟩ :=
      Operation.completes_bind_iff.1 completes
    · -- the first write comes to nothing
      exact ⟨[], write, writes, [], [], log, rfl, .nil, fails_of_completes_expand failed, rfl⟩
    obtain ⟨failure, failed, ⟨⟩⟩ | ⟨others, moreReads, none, rfl, resolved, completes⟩ :=
      Operation.completes_bind_iff.1 completes
    · obtain ⟨before, stopping, after, moreReads, operations, failing, rfl, expand, fails, rfl⟩ :=
        inductionHypothesis failed
      exact ⟨write :: before, stopping, after, reads ++ moreReads, first ++ operations, failing, rfl,
        .cons (completes_expand_ok_iff.1 expanded) expand, fails, by rw [List.append_assoc]⟩
    · obtain ⟨-, ⟨⟩⟩ := Operation.completes_pure_iff.1 completes

/-! ## Submitting -/

theorem getElem?_cancelledOperations (operations : List WriteOperation)
    (reasons : List CancellationReason) (index : Nat) :
    (cancelledOperations operations reasons)[index]? =
      reasons[index]?.map (·.reportAt operations index) := by
  rw [cancelledOperations, List.getElem?_mapIdx]
  rfl

theorem submit_eq {operations : List WriteOperation} (isSome : operations ≠ []) {log : List Exchange}
    {result : Except Error Unit} (completes : (submit operations).run.Completes log result) :
    ∃ answer, log = [⟨.transactWrite operations, answer⟩] ∧
      result = answer.bind fun
        | .committed => .ok ()
        | .cancelled reasons =>
          .error (.transactionCancelled (cancelledOperations operations reasons)) := by
  rw [submit, if_neg (by simpa using isSome)] at completes
  obtain ⟨error, asked, rfl⟩ | ⟨outcome, first, second, rfl, asked, ends⟩ :=
    Operation.completes_bind_iff.1 completes
  · obtain rfl := Operation.completes_ask_iff.1 asked
    exact ⟨.error error, rfl, rfl⟩
  obtain rfl := Operation.completes_ask_iff.1 asked
  cases outcome with
  | committed =>
    obtain ⟨rfl, rfl⟩ := Operation.completes_pure_iff.1 ends
    exact ⟨_, rfl, rfl⟩
  | cancelled reasons =>
    obtain ⟨rfl, rfl⟩ := Operation.completes_throw_iff.1 ends
    exact ⟨_, rfl, rfl⟩

theorem coordinated_of_submit {limit : Nat} {writes : List PendingWrite}
    {operations : List WriteOperation} {reads log : List Exchange} {result : Except Error Unit}
    (expand : ExpandAll writes reads operations) (fits : operations.length ≤ limit)
    (completes : (submit operations).run.Completes log result) :
    Coordinated limit writes (reads ++ log) result := by
  by_cases isSome : operations = []
  · subst isSome
    obtain ⟨rfl, rfl⟩ := Operation.completes_pure_iff.1 completes
    rw [List.append_nil]
    exact .empty expand
  obtain ⟨answer, rfl, rfl⟩ := submit_eq isSome completes
  match answer with
  | .error error => exact .refused expand isSome fits error
  | .ok .committed => exact .committed expand isSome fits
  | .ok (.cancelled reasons) =>
    exact .cancelled expand isSome fits (getElem?_cancelledOperations operations reasons)

theorem coordinated_of_completes {connection : Connection} {writes : List PendingWrite}
    {log : List Exchange} {result : Except Error Unit}
    (completes : (connection.executeWrites writes).run.Completes log result) :
    Coordinated connection.config.maxTransactionItems writes log result := by
  obtain ⟨error, failed, rfl⟩ | ⟨operations, reads, rest, rfl, resolved, completes⟩ :=
    Operation.completes_bind_iff.1 completes
  · obtain ⟨before, write, after, reads, operations, failing, writes_eq, expand, fails, rfl⟩ :=
      stops_of_completes_resolve failed
    exact .stopped writes_eq expand fails
  have expand := completes_resolve_ok_iff.1 resolved
  dsimp only at completes
  split at completes
  · next exceeds =>
    obtain ⟨rfl, rfl⟩ := Operation.completes_throw_iff.1 completes
    rw [List.append_nil]
    exact .excess expand exceeds
  · next fits =>
    exact coordinated_of_submit expand (Nat.le_of_not_lt fits) completes

/-! ## The whole execution -/

theorem reads_or_submits {limit : Nat} {writes : List PendingWrite} {log : List Exchange}
    {result : Except Error Unit} (coordinated : Coordinated limit writes log result) :
    (∀ exchange ∈ log, ∃ request, exchange.call = .get request) ∨
      ∃ reads operations answer, log = reads ++ [⟨.transactWrite operations, answer⟩] ∧
        ExpandAll writes reads operations ∧ operations ≠ [] ∧ operations.length ≤ limit := by
  cases coordinated with
  | stopped _ expand fails =>
    refine .inl fun exchange isExchange => ?_
    rcases List.mem_append.1 isExchange with isRead | isRead
    · exact expand.isRead isRead
    · exact fails.isRead isRead
  | empty expand => exact .inl fun _ isRead => expand.isRead isRead
  | excess expand _ => exact .inl fun _ isRead => expand.isRead isRead
  | refused expand isSome fits _ => exact .inr ⟨_, _, _, rfl, expand, isSome, fits⟩
  | committed expand isSome fits => exact .inr ⟨_, _, _, rfl, expand, isSome, fits⟩
  | cancelled expand isSome fits _ => exact .inr ⟨_, _, _, rfl, expand, isSome, fits⟩

theorem call_of_coordinated {limit : Nat} {writes : List PendingWrite} {log : List Exchange}
    {result : Except Error Unit} (coordinated : Coordinated limit writes log result)
    {exchange : Exchange} (isExchange : exchange ∈ log) :
    (∃ request, exchange.call = .get request) ∨ ∃ operations, exchange.call = .transactWrite operations := by
  obtain areReads | ⟨reads, operations, answer, rfl, expand, -, -⟩ := reads_or_submits coordinated
  · exact .inl (areReads exchange isExchange)
  rcases List.mem_append.1 isExchange with isRead | isLast
  · exact .inl (expand.isRead isRead)
  · obtain rfl := List.mem_singleton.1 isLast
    exact .inr ⟨operations, rfl⟩

theorem submits_of_expandAll {connection : Connection} {writes : List PendingWrite}
    {reads rest : List Exchange} {operations : List WriteOperation} {result : Except Error Unit}
    (completes : (connection.executeWrites writes).run.Completes (reads ++ rest) result)
    (expand : ExpandAll writes reads operations) (isSome : operations ≠ [])
    (fits : operations.length ≤ connection.config.maxTransactionItems) :
    ∃ answer, rest = [⟨.transactWrite operations, answer⟩] := by
  have resolved := completes_resolve_ok_iff.2 expand
  obtain ⟨error, failed, -⟩ | ⟨others, first, second, log_eq, resolves, completes⟩ :=
    Operation.completes_bind_iff.1 completes
  · -- the same exchanges do not end in an error as well
    obtain ⟨-, -, ⟨⟩⟩ := resolved.eq_of_append failed (List.append_nil _).symm
  obtain ⟨rfl, rfl, same⟩ := resolved.eq_of_append resolves log_eq
  obtain rfl := Except.ok.inj same
  dsimp only at completes
  rw [if_neg (Nat.not_lt.2 fits)] at completes
  obtain ⟨answer, log_eq, -⟩ := submit_eq isSome completes
  exact ⟨answer, log_eq⟩

variable {σ : Type}

/-- Whatever the store answers, pending writes are executed in one of the ways of `Coordinated`.  The
store is asked to write if and only if it answered every read, each write came to operations, and
there are some of them but not too many. -/
theorem executeWrites_coordinated (connection : Connection) (writes : List PendingWrite)
    (store : Store σ) (state : σ) :
    Coordinated connection.config.maxTransactionItems writes
        ((connection.executeWrites writes).run.trace store state)
        ((connection.executeWrites writes).run.run store state).1 ∧
      ((∃ exchange ∈ (connection.executeWrites writes).run.trace store state,
          ∃ operations, exchange.call = .transactWrite operations) ↔
        ∃ reads operations, reads <+: (connection.executeWrites writes).run.trace store state ∧
          ExpandAll writes reads operations ∧ operations ≠ [] ∧
          operations.length ≤ connection.config.maxTransactionItems) := by
  have completes := Dialogue.completes_trace store (connection.executeWrites writes).run state
  have coordinated := coordinated_of_completes completes
  refine ⟨coordinated, ?_, ?_⟩
  · rintro ⟨exchange, isExchange, submitted, submits⟩
    obtain areReads | ⟨reads, operations, answer, log_eq, expand, isSome, fits⟩ :=
      reads_or_submits coordinated
    · obtain ⟨request, isRead⟩ := areReads exchange isExchange
      rw [submits] at isRead
      cases isRead
    · exact ⟨reads, operations, ⟨_, log_eq.symm⟩, expand, isSome, fits⟩
  · rintro ⟨reads, operations, ⟨rest, log_eq⟩, expand, isSome, fits⟩
    rw [← log_eq] at completes ⊢
    obtain ⟨answer, rfl⟩ := submits_of_expandAll completes expand isSome fits
    exact ⟨⟨.transactWrite operations, answer⟩, by simp, operations, rfl⟩

end Connection

end SingleTable
