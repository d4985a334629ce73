import SingleTable.Connection.Batches
import SingleTable.Proofs.Store.Schedule
import SingleTable.Proofs.Transaction.Coordination

/-!
# What becomes of the items of a batch

A chunk of a batch is sent, and what the store leaves unprocessed is sent again while retries are left
(`Resent`).  So a request is accepted by the store, or left unprocessed after the last attempt, or part
of a call that failed.  An attempt keeps the account whatever it leaves over (`Accounted.resend`), so
each chunk accounts for its requests (`Connection.writeChunk_accounts`), and so does the batch as a
whole, whatever the order in which its parts go on (`Connection.batchWrites_accounts`).
-/

namespace SingleTable

/-! ## Attempts -/

section Attempts

variable {ρ : Type} {log : List Exchange}

/-- Each of some elements has met its fate in a log, or is left over, or was part of a call that failed,
and there are no others. -/
def Accounted (fate : Exchange → Multiset ρ) (log : List Exchange) (left failed : List ρ)
    (elements : Multiset ρ) : Prop :=
  elements = (log.map fate).sum + left + failed

namespace Accounted

variable {fate : Exchange → Multiset ρ} {log' : List Exchange} {left left' failed failed' : List ρ}
  {elements elements' : Multiset ρ}

theorem append (accounted : Accounted fate log left failed elements)
    (accounted' : Accounted fate log' left' failed' elements') :
    Accounted fate (log ++ log') (left ++ left') (failed ++ failed') (elements + elements') := by
  unfold Accounted at accounted accounted' ⊢
  rw [accounted, accounted', List.map_append, List.sum_append, ← Multiset.coe_add, ← Multiset.coe_add]
  ac_rfl

theorem perm (accounted : Accounted fate log left failed elements) (sameLog : log.Perm log')
    (sameLeft : left.Perm left') (sameFailed : failed.Perm failed') :
    Accounted fate log' left' failed' elements := by
  unfold Accounted at accounted ⊢
  rw [accounted, (sameLog.map _).sum_eq, Multiset.coe_eq_coe.2 sameLeft,
    Multiset.coe_eq_coe.2 sameFailed]

/-- Parts that account for their shares account together for all of them. -/
theorem flatMap {τ σ : Type} {parts : List τ} {outcomes : List σ} {log : τ → List Exchange}
    {left failed : σ → List ρ} (share : τ → Multiset ρ)
    (each : List.Forall₂ (fun part outcome =>
      Accounted fate (log part) (left outcome) (failed outcome) (share part)) parts outcomes) :
    Accounted fate (parts.flatMap log) (outcomes.flatMap left) (outcomes.flatMap failed)
      (parts.map share).sum := by
  induction each with
  | nil => rfl
  | cons first _ inductionHypothesis =>
    simp only [List.flatMap_cons, List.map_cons, List.sum_cons]
    exact first.append inductionHypothesis

/-- An attempt accounts for what it has not left over, and those behind it account for the rest. -/
theorem resend [DecidableEq ρ] {exchange : Exchange} {pending unprocessed : List ρ}
    (fate_eq : fate exchange = (pending : Multiset ρ) - unprocessed)
    (fair : (unprocessed : Multiset ρ) ≤ pending)
    (rest : Accounted fate log left failed (unprocessed : Multiset ρ)) :
    Accounted fate (exchange :: log) left failed (pending : Multiset ρ) := by
  unfold Accounted at rest ⊢
  rw [List.map_cons, List.sum_cons, fate_eq, add_assoc, add_assoc, ← add_assoc (List.sum _), ← rest]
  exact (tsub_add_cancel_of_le fair).symm

end Accounted

/-- Elements are sent by a call, and what it leaves over by a further one, as long as retries are
left. -/
inductive Resent (call : List ρ → Call) (left : Exchange → List ρ) :
    (retries : Nat) → (pending : List ρ) → List Exchange → Prop where
  | last {retries : Nat} {pending : List ρ} {exchange : Exchange}
      (isSent : exchange.call = call pending) (isLast : retries = 0 ∨ left exchange = []) :
      Resent call left retries pending [exchange]
  | again {retries : Nat} {pending : List ρ} {exchange : Exchange} {log : List Exchange}
      (isSent : exchange.call = call pending) (someLeft : left exchange ≠ [])
      (rest : Resent call left retries (left exchange) log) :
      Resent call left (retries + 1) pending (exchange :: log)

theorem Resent.length_le {call : List ρ → Call} {left : Exchange → List ρ} {retries : Nat}
    {pending : List ρ} (resent : Resent call left retries pending log) : log.length ≤ retries + 1 := by
  induction resent with
  | last => simp
  | again _ _ _ inductionHypothesis => simpa using inductionHypothesis

section Calls

variable {call : List ρ → Call} {pending : List ρ} (isSome : pending ≠ [])
include isSome

theorem sends_once (answer : Except Error (call pending).Answer) :
    ∀ exchange ∈ [Exchange.mk (call pending) answer], ∃ part, exchange.call = call part ∧ part ≠ [] ∧
      (part : Multiset ρ) ≤ pending := by
  intro exchange isExchange
  obtain rfl := List.mem_singleton.1 isExchange
  exact ⟨pending, rfl, isSome, le_refl _⟩

theorem sends_again (answer : Except Error (call pending).Answer) {unprocessed : List ρ}
    (fair : (unprocessed : Multiset ρ) ≤ pending)
    (sends : ∀ exchange ∈ log, ∃ part, exchange.call = call part ∧ part ≠ [] ∧
      (part : Multiset ρ) ≤ unprocessed) :
    ∀ exchange ∈ Exchange.mk (call pending) answer :: log, ∃ part, exchange.call = call part ∧
      part ≠ [] ∧ (part : Multiset ρ) ≤ pending := by
  intro exchange isExchange
  rcases List.mem_cons.1 isExchange with rfl | isLater
  · exact ⟨pending, rfl, isSome, le_refl _⟩
  · obtain ⟨part, call_eq, isSome, isPart⟩ := sends exchange isLater
    exact ⟨part, call_eq, isSome, isPart.trans fair⟩

end Calls

end Attempts

/-! ## Requests and their fates -/

/-- The requests of a call that the store accepted: those it did not leave unprocessed. -/
def Exchange.accepted : Exchange → Multiset BatchWrite
  | ⟨.batchWrite requests, .ok unprocessed⟩ => (requests : Multiset BatchWrite) - unprocessed
  | _ => 0

theorem Exchange.accepted_eq_zero {exchange : Exchange}
    (sendsNone : ∀ requests, exchange.call ≠ .batchWrite requests) : exchange.accepted = 0 := by
  unfold accepted
  split
  · next requests _ => exact absurd rfl (sendsNone requests)
  · rfl

def Exchange.requestsLeft : Exchange → List BatchWrite
  | ⟨.batchWrite _, .ok unprocessed⟩ => unprocessed
  | _ => []

/-- Only requests of a call are left unprocessed by it. -/
def Exchange.IsFair : Exchange → Prop
  | ⟨.batchWrite requests, .ok unprocessed⟩ => (unprocessed : Multiset BatchWrite) ≤ requests
  | _ => True

def FailedWrite.requests : FailedWrite → List BatchWrite
  | batch requests _ => requests
  | transaction _ _ => []

def FailedWrite.transaction? : FailedWrite → Option (String × Error)
  | batch _ _ => none
  | transaction entity error => some (entity, error)

def BatchWriteOutcome.failedTransactions (outcome : BatchWriteOutcome) : List (String × Error) :=
  outcome.failed.filterMap (·.transaction?)

/-- Each of some requests was accepted in a log, is still unprocessed, or was part of a call that
failed, and there are no others. -/
def BatchWriteOutcome.Accounts (outcome : BatchWriteOutcome) (log : List Exchange)
    (requests : Multiset BatchWrite) : Prop :=
  requests = (log.map (·.accepted)).sum + outcome.unprocessed +
    (outcome.failed.flatMap (·.requests) : List BatchWrite)

/-! ## Several parts -/

namespace BatchWriteOutcome

theorem join_append (outcomes outcomes' : List BatchWriteOutcome) :
    join (outcomes ++ outcomes') = ⟨(join outcomes).unprocessed ++ (join outcomes').unprocessed,
      (join outcomes).failed ++ (join outcomes').failed⟩ := by
  simp [join]

theorem Accounts.append {outcomes outcomes' : List BatchWriteOutcome} {log log' : List Exchange}
    {requests requests' : Multiset BatchWrite} (accounts : (join outcomes).Accounts log requests)
    (accounts' : (join outcomes').Accounts log' requests') :
    (join (outcomes ++ outcomes')).Accounts (log ++ log') (requests + requests') := by
  rw [Accounts, join_append, List.flatMap_append]
  exact Accounted.append accounts accounts'

/-- Parts that account for their shares of requests account together for all of them. -/
theorem accounts_join {τ : Type} {parts : List τ} {outcomes : List BatchWriteOutcome}
    {log : τ → List Exchange} (share : τ → Multiset BatchWrite)
    (each : List.Forall₂ (fun part outcome => outcome.Accounts (log part) (share part)) parts outcomes) :
    (join outcomes).Accounts (parts.flatMap log) (parts.map share).sum := by
  rw [Accounts, join, List.flatMap_assoc]
  exact Accounted.flatMap share each

theorem Accounts.perm {outcomes outcomes' : List BatchWriteOutcome} {log log' : List Exchange}
    {requests : Multiset BatchWrite} (accounts : (join outcomes).Accounts log requests)
    (sameLog : log.Perm log') (same : outcomes.Perm outcomes') :
    (join outcomes').Accounts log' requests :=
  Accounted.perm accounts sameLog (same.flatMap_right _) ((same.flatMap_right _).flatMap_right _)

end BatchWriteOutcome

/-! ## Chunks -/

section Chunks

variable {α : Type}

theorem flatten_chunks (size : Nat) (elements : List α) : (chunks size elements).flatten = elements := by
  fun_induction chunks size elements with
  | case1 => rfl
  | case2 element elements inductionHypothesis =>
    rw [List.flatten_cons, inductionHypothesis, List.cons_append, List.take_append_drop]

theorem sum_chunks (size start : Nat) (elements : List α) :
    (((chunks size elements).zipIdx start).map fun chunk => Multiset.ofList chunk.1).sum = elements := by
  have sum_eq : ∀ lists : List (List α), (lists.map Multiset.ofList).sum = lists.flatten := by
    intro lists
    induction lists with
    | nil => rfl
    | cons list lists inductionHypothesis =>
      rw [List.map_cons, List.sum_cons, inductionHypothesis, List.flatten_cons, ← Multiset.coe_add]
  have unnumbered := sum_eq (((chunks size elements).zipIdx start).map Prod.fst)
  rwa [List.map_map, List.zipIdx_map_fst, flatten_chunks] at unnumbered

theorem length_of_mem_chunks {size : Nat} {elements chunk : List α} (isChunk : chunk ∈ chunks size elements) :
    1 ≤ chunk.length ∧ chunk.length ≤ max 1 size := by
  fun_induction chunks size elements with
  | case1 => cases isChunk
  | case2 element elements inductionHypothesis =>
    rcases List.mem_cons.1 isChunk with rfl | isLater
    · simp only [List.length_cons, List.length_take]
      omega
    · exact inductionHypothesis isLater

end Chunks

namespace Connection

/-- The exchanges and the outcome of a chunk of requests that are sent again a number of times. -/
structure ChunkAccounts (retries : Nat) (pending : List BatchWrite) (log : List Exchange)
    (outcome : BatchWriteOutcome) : Prop where
  resent : Resent .batchWrite Exchange.requestsLeft retries pending log
  sends : ∀ exchange ∈ log, ∃ requests, exchange.call = .batchWrite requests ∧ requests ≠ [] ∧
    (requests : Multiset BatchWrite) ≤ pending
  accounts : outcome.Accounts log pending
  alone : outcome.failedTransactions = []

theorem chunkAccounts_failed (retries : Nat) {pending : List BatchWrite} (isSome : pending ≠ [])
    (error : Error) :
    ChunkAccounts retries pending [⟨.batchWrite pending, .error error⟩]
      { failed := [.batch pending error] } where
  resent := .last rfl (.inr rfl)
  sends := sends_once isSome _
  accounts := by simp [BatchWriteOutcome.Accounts, Exchange.accepted, FailedWrite.requests]
  alone := rfl

theorem chunkAccounts_left {retries : Nat} {pending unprocessed : List BatchWrite}
    (isLast : retries = 0 ∨ unprocessed = []) (isSome : pending ≠ [])
    (fair : (unprocessed : Multiset BatchWrite) ≤ pending) :
    ChunkAccounts retries pending [⟨.batchWrite pending, .ok unprocessed⟩] { unprocessed } where
  resent := .last rfl isLast
  sends := sends_once isSome _
  accounts := by
    simpa [BatchWriteOutcome.Accounts, Exchange.accepted] using (tsub_add_cancel_of_le fair).symm
  alone := rfl

theorem ChunkAccounts.resend {retries : Nat} {pending unprocessed : List BatchWrite}
    {log : List Exchange} {outcome : BatchWriteOutcome} (isSome : pending ≠ [])
    (someLeft : unprocessed ≠ []) (fair : (unprocessed : Multiset BatchWrite) ≤ pending)
    (rest : ChunkAccounts retries unprocessed log outcome) :
    ChunkAccounts (retries + 1) pending (⟨.batchWrite pending, .ok unprocessed⟩ :: log) outcome where
  resent := .again rfl someLeft rest.resent
  sends := sends_again isSome _ fair rest.sends
  accounts := Accounted.resend rfl fair rest.accounts
  alone := rest.alone

theorem writeChunk_accounts {policy : RetryPolicy} {retries attempt : Nat} {pending : List BatchWrite}
    {log : List Exchange} {outcome : BatchWriteOutcome} (isSome : pending ≠ [])
    (fair : ∀ exchange ∈ log, exchange.IsFair)
    (completes : (writeChunk policy retries attempt pending).Completes log outcome) :
    ChunkAccounts retries pending log outcome := by
  -- by induction on the retries that are left: what was accepted is accounted for at once, and what
  -- was left unprocessed by the attempts that follow
  induction retries generalizing attempt pending log with
  | zero =>
    unfold writeChunk at completes
    obtain ⟨answer, rest, rfl, completed⟩ := Dialogue.completes_ask_iff.1 completes
    rw [List.forall_mem_cons] at fair
    cases answer with
    | error error =>
      obtain ⟨rfl, rfl⟩ := Dialogue.completes_done_iff.1 completed
      exact chunkAccounts_failed 0 isSome error
    | ok unprocessed =>
      obtain ⟨rfl, rfl⟩ := Dialogue.completes_done_iff.1 completed
      exact chunkAccounts_left (.inl rfl) isSome fair.1
  | succ retries inductionHypothesis =>
    unfold writeChunk at completes
    obtain ⟨answer, rest, rfl, completed⟩ := Dialogue.completes_ask_iff.1 completes
    rw [List.forall_mem_cons] at fair
    match answer with
    | .error error =>
      obtain ⟨rfl, rfl⟩ := Dialogue.completes_done_iff.1 completed
      exact chunkAccounts_failed (retries + 1) isSome error
    | .ok [] =>
      obtain ⟨rfl, rfl⟩ := Dialogue.completes_done_iff.1 completed
      exact chunkAccounts_left (.inr rfl) isSome fair.1
    | .ok (first :: unprocessed) =>
      cases completed with
      | pause completed =>
        have someLeft := List.cons_ne_nil first unprocessed
        exact .resend isSome someLeft fair.1 (inductionHypothesis someLeft fair.2 completed)

/-! ## Transactions -/

def report (entity : String) : Except Error Unit → Option (String × Error)
  | .ok () => none
  | .error error => some (entity, error)

structure AloneAccounts (connection : Connection) (entity : String) (write : PendingWrite)
    (log : List Exchange) (outcome : BatchWriteOutcome) (execution : Except Error Unit) : Prop where
  executes : (connection.executeWrites [write]).run.Completes log execution
  reports : outcome.failedTransactions = (report entity execution).toList
  sendsNone : ∀ exchange ∈ log, ∀ requests, exchange.call ≠ .batchWrite requests
  accounts : outcome.Accounts log 0

theorem writeAlone_accounts {connection : Connection} {entity : String} {write : PendingWrite}
    {log : List Exchange} {outcome : BatchWriteOutcome}
    (completes : (connection.writeAlone entity write).Completes log outcome) :
    ∃ execution, AloneAccounts connection entity write log outcome execution := by
  obtain ⟨execution, first, second, rfl, executes, ends⟩ := Dialogue.completes_bind_iff.1 completes
  have coordinated := coordinated_of_completes executes
  have sendsNone : ∀ exchange ∈ first, ∀ requests, exchange.call ≠ .batchWrite requests := by
    intro exchange isExchange requests
    obtain ⟨request, call_eq⟩ | ⟨operations, call_eq⟩ := call_of_coordinated coordinated isExchange
    · simp [call_eq]
    · simp [call_eq]
  have acceptsNone : (first.map (·.accepted)).sum = 0 := by
    refine List.sum_eq_zero fun accepted isAccepted => ?_
    obtain ⟨exchange, isExchange, rfl⟩ := List.mem_map.1 isAccepted
    exact Exchange.accepted_eq_zero (sendsNone exchange isExchange)
  refine ⟨execution, ?_⟩
  cases execution with
  | ok value =>
    obtain ⟨rfl, rfl⟩ := Dialogue.completes_done_iff.1 ends
    rw [List.append_nil]
    exact ⟨executes, rfl, sendsNone, by simp [BatchWriteOutcome.Accounts, acceptsNone]⟩
  | error error =>
    obtain ⟨rfl, rfl⟩ := Dialogue.completes_done_iff.1 ends
    rw [List.append_nil]
    exact ⟨executes, rfl, sendsNone,
      by simp [BatchWriteOutcome.Accounts, acceptsNone, FailedWrite.requests]⟩

/-! ## Whole batches -/

/-- The chunks of a batch with their numbers, which come after those of its transactions. -/
def numberedChunks (connection : Connection) (items : List BatchItem) : List (List BatchWrite × Nat) :=
  (chunks connection.config.maxBatchWriteItems (plainRequests items)).zipIdx
    (ownTransactions items).length

theorem length_of_mem_numberedChunks {connection : Connection} {items : List BatchItem}
    {chunk : List BatchWrite × Nat} (isChunk : chunk ∈ connection.numberedChunks items) :
    1 ≤ chunk.1.length ∧ chunk.1.length ≤ max 1 connection.config.maxBatchWriteItems :=
  length_of_mem_chunks (List.fst_mem_of_mem_zipIdx isChunk)

theorem zipIdx_batchWrites (connection : Connection) (items : List BatchItem) (limit : Option Nat) :
    (connection.batchWrites items limit).dialogues.zipIdx =
      (ownTransactions items).zipIdx.map
          (fun own => (connection.writeAlone own.1.1 own.1.2, own.2)) ++
        (connection.numberedChunks items).map fun chunk =>
          (writeChunk connection.config.retry connection.config.retry.maxRetries 0 chunk.1, chunk.2) := by
  rw [batchWrites, batchPool, List.zipIdx_append, List.zipIdx_map, List.zipIdx_map, List.length_map,
    Nat.zero_add]
  rfl

/-- The outcomes of the transactions and of the chunks of a batch, each with its own exchanges. -/
structure Parts (connection : Connection) (items : List BatchItem) (log : List (Exchange × Nat))
    (alone sent : List BatchWriteOutcome) : Prop where
  ofTransactions : List.Forall₂ (fun own outcome => ∃ execution, AloneAccounts connection own.1.1
    own.1.2 (Tasks.exchangesOf own.2 log) outcome execution) (ownTransactions items).zipIdx alone
  ofChunks : List.Forall₂ (fun chunk outcome => ChunkAccounts connection.config.retry.maxRetries
    chunk.1 (Tasks.exchangesOf chunk.2 log) outcome) (connection.numberedChunks items) sent
  sameLog : (log.map (·.1)).Perm ((ownTransactions items).zipIdx.flatMap (Tasks.exchangesOf ·.2 log) ++
    (connection.numberedChunks items).flatMap (Tasks.exchangesOf ·.2 log))

/-- Whatever the schedule, a batch comes apart into its transactions and its chunks. -/
theorem exists_parts {connection : Connection} {items : List BatchItem} {limit : Option Nat}
    {log : List (Exchange × Nat)} {results : List (BatchWriteOutcome × Nat)}
    (schedule : Tasks.Schedule Exchange.IsFair (connection.batchWrites items limit).tasks log results 0) :
    ∃ alone sent, Parts connection items log alone sent ∧
      (results.map (·.1)).Perm (alone ++ sent) := by
  obtain ⟨outcomes, completes, sameResults, sameLog⟩ := Pool.exists_outcomes schedule
  rw [zipIdx_batchWrites] at completes sameLog
  rw [List.flatMap_append, List.flatMap_map, List.flatMap_map] at sameLog
  rw [← List.take_append_drop _ outcomes] at sameResults
  have aloneCompletes := List.forall₂_take_append _ _ _ completes.flip
  have sentCompletes := List.forall₂_drop_append _ _ _ completes.flip
  refine ⟨_, _, ⟨?_, ?_, sameLog⟩, sameResults⟩
  · exact (List.forall₂_map_left_iff.1 aloneCompletes.flip).imp fun own outcome completes =>
      writeAlone_accounts completes
  · -- a chunk is never empty, and the store is fair to the calls of each
    have fair : ∀ number, ∀ exchange ∈ Tasks.exchangesOf number log, exchange.IsFair :=
      fun number exchange isExchange => schedule.isAllowed _ (Tasks.mem_exchangesOf_iff.1 isExchange)
    have isSome : ∀ chunk ∈ connection.numberedChunks items, chunk.1 ≠ [] := fun chunk isChunk =>
      List.ne_nil_of_length_pos (length_of_mem_numberedChunks isChunk).1
    have each := List.forall₂_map_left_iff.1 sentCompletes.flip
    exact ((List.forall₂_and_left _ _).2 ⟨isSome, each⟩).imp fun chunk outcome both =>
      writeChunk_accounts both.1 (fair chunk.2) both.2

namespace Parts

variable {connection : Connection} {items : List BatchItem} {log : List (Exchange × Nat)}
  {alone sent : List BatchWriteOutcome} (parts : Parts connection items log alone sent)
include parts

theorem sizes {entry : Exchange × Nat} (isEntry : entry ∈ log) {requests : List BatchWrite}
    (isBatch : entry.1.call = .batchWrite requests) :
    1 ≤ requests.length ∧ requests.length ≤ max 1 connection.config.maxBatchWriteItems := by
  have isExchange := parts.sameLog.mem_iff.1 (List.mem_map_of_mem isEntry)
  rcases List.mem_append.1 isExchange with isExchange | isExchange
  · obtain ⟨own, isOwn, isExchange⟩ := List.mem_flatMap.1 isExchange
    obtain ⟨outcome, execution, accounts⟩ := exists_forall₂_iff.1 ⟨_, parts.ofTransactions⟩ own isOwn
    exact absurd isBatch (accounts.sendsNone _ isExchange requests)
  · obtain ⟨chunk, isChunk, isExchange⟩ := List.mem_flatMap.1 isExchange
    obtain ⟨outcome, accounts⟩ := exists_forall₂_iff.1 ⟨_, parts.ofChunks⟩ chunk isChunk
    obtain ⟨others, isSent, isSome, isPart⟩ := accounts.sends _ isExchange
    obtain rfl : others = requests := Call.batchWrite.inj (isSent.symm.trans isBatch)
    exact ⟨List.length_pos_iff.2 isSome,
      (Multiset.card_le_card isPart).trans (length_of_mem_numberedChunks isChunk).2⟩

theorem resent {chunk : List BatchWrite × Nat} (isChunk : chunk ∈ connection.numberedChunks items) :
    Resent .batchWrite Exchange.requestsLeft connection.config.retry.maxRetries chunk.1
      (Tasks.exchangesOf chunk.2 log) := by
  obtain ⟨outcome, accounts⟩ := exists_forall₂_iff.1 ⟨_, parts.ofChunks⟩ chunk isChunk
  exact accounts.resent

theorem accounts :
    (BatchWriteOutcome.join (alone ++ sent)).Accounts (log.map (·.1)) (plainRequests items) := by
  have ofTransactions := BatchWriteOutcome.accounts_join (fun _ => 0) <|
    parts.ofTransactions.imp fun own outcome accounts => accounts.choose_spec.accounts
  have ofChunks := BatchWriteOutcome.accounts_join (fun chunk => Multiset.ofList chunk.1) <|
    parts.ofChunks.imp fun chunk outcome accounts => accounts.accounts
  have noShare : ((ownTransactions items).zipIdx.map fun _ => (0 : Multiset BatchWrite)).sum = 0 := by
    simp
  have together := (ofTransactions.append ofChunks).perm parts.sameLog.symm (.refl _)
  rwa [noShare, numberedChunks, sum_chunks, zero_add] at together

end Parts

end Connection

end SingleTable
