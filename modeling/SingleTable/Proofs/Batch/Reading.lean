import SingleTable.Proofs.Batch.Accounting
import SingleTable.Proofs.Entity.Attribution

/-!
# What becomes of the keys of a batch read

A key of a batch is answered by the store, or left unprocessed after the last attempt, or part of a
call that failed; and whatever was read for a chunk stays in the outcome, also if a later call of the
chunk fails.  Both are kept by every attempt (`Connection.ChunkReads.resend`), so they hold of a chunk
(`Connection.readChunk_reads`) and, whatever the order in which the chunks go on, of the batch
(`Connection.batchReads_accounts`).
-/

namespace SingleTable

/-! ## Keys and their fates -/

namespace Exchange

/-- The keys of a call that the store answered: those it did not leave unprocessed. -/
def answered : Exchange → Multiset KeyRef
  | ⟨.batchRead keys, .ok answer⟩ => (keys : Multiset KeyRef) - answer.unprocessed
  | _ => 0

def itemsRead : Exchange → List Item
  | ⟨.batchRead _, .ok answer⟩ => answer.items
  | _ => []

def keysLeft : Exchange → List KeyRef
  | ⟨.batchRead _, .ok answer⟩ => answer.unprocessed
  | _ => []

/-- Only keys of a call are left unprocessed by it. -/
def LeavesOwnKeys : Exchange → Prop
  | ⟨.batchRead keys, .ok answer⟩ => (answer.unprocessed : Multiset KeyRef) ≤ keys
  | _ => True

end Exchange

/-- Each of some keys was answered in a log, is still unprocessed, or was part of a call that failed,
and there are no others. -/
def BatchReadOutcome.Accounts {α : Type} (outcome : BatchReadOutcome α) (log : List Exchange)
    (keys : Multiset KeyRef) : Prop :=
  keys = (log.map (·.answered)).sum + outcome.unprocessed +
    (outcome.failed.flatMap (·.keys) : List KeyRef)

namespace BatchReadOutcome

variable {α : Type}

theorem join_cons (outcome : BatchReadOutcome α) (outcomes : List (BatchReadOutcome α)) :
    join (outcome :: outcomes) =
      ⟨outcome.items ++ (join outcomes).items, outcome.unprocessed ++ (join outcomes).unprocessed,
        outcome.failed ++ (join outcomes).failed⟩ := rfl

/-- Parts that account for their shares of keys account together for all of them. -/
theorem accounts_join {τ : Type} {parts : List τ} {outcomes : List (BatchReadOutcome α)}
    {log : τ → List Exchange} (share : τ → Multiset KeyRef)
    (each : List.Forall₂ (fun part outcome => outcome.Accounts (log part) (share part)) parts outcomes) :
    (join outcomes).Accounts (parts.flatMap log) (parts.map share).sum := by
  rw [Accounts, join, List.flatMap_assoc]
  exact Accounted.flatMap share each

theorem Accounts.perm {outcomes outcomes' : List (BatchReadOutcome α)} {log log' : List Exchange}
    {keys : Multiset KeyRef} (accounts : (join outcomes).Accounts log keys)
    (sameLog : log.Perm log') (same : outcomes.Perm outcomes') :
    (join outcomes').Accounts log' keys :=
  Accounted.perm accounts sameLog (same.flatMap_right _) ((same.flatMap_right _).flatMap_right _)

end BatchReadOutcome

namespace Connection

/-! ## Chunks -/

/-- The exchanges and the outcome of a chunk of keys that are sent again a number of times, after
`items` have been read for it. -/
structure ChunkReads (retries : Nat) (items : List Item) (pending : List KeyRef) (log : List Exchange)
    (outcome : BatchReadOutcome Item) : Prop where
  resent : Resent .batchRead Exchange.keysLeft retries pending log
  sends : ∀ exchange ∈ log, ∃ keys, exchange.call = .batchRead keys ∧ keys ≠ [] ∧
    (keys : Multiset KeyRef) ≤ pending
  accounts : outcome.Accounts log pending
  reads : outcome.items = items ++ log.flatMap (·.itemsRead)

section Chunks

variable {items : List Item} {pending : List KeyRef} (isSome : pending ≠ [])
include isSome

/-- What was read before a call stays if the call fails. -/
theorem chunkReads_failed (retries : Nat) (error : Error) :
    ChunkReads retries items pending [⟨.batchRead pending, .error error⟩]
      { items, failed := [⟨pending, error⟩] } where
  resent := .last rfl (.inr rfl)
  sends := sends_once isSome _
  accounts := by simp [BatchReadOutcome.Accounts, Exchange.answered]
  reads := by simp [Exchange.itemsRead]

variable {answer : BatchReadAnswer} (fair : (answer.unprocessed : Multiset KeyRef) ≤ pending)
include fair

theorem chunkReads_left {retries : Nat} (isLast : retries = 0 ∨ answer.unprocessed = []) :
    ChunkReads retries items pending [⟨.batchRead pending, .ok answer⟩]
      { items := items ++ answer.items, unprocessed := answer.unprocessed } where
  resent := .last rfl isLast
  sends := sends_once isSome _
  accounts := by
    simpa [BatchReadOutcome.Accounts, Exchange.answered] using (tsub_add_cancel_of_le fair).symm
  reads := by simp [Exchange.itemsRead]

/-- An attempt before others keeps both: the keys it answered are accounted for at once, and the items
it has read are handed on. -/
theorem ChunkReads.resend {retries : Nat} {log : List Exchange} {outcome : BatchReadOutcome Item}
    (someLeft : answer.unprocessed ≠ [])
    (rest : ChunkReads retries (items ++ answer.items) answer.unprocessed log outcome) :
    ChunkReads (retries + 1) items pending (⟨.batchRead pending, .ok answer⟩ :: log) outcome where
  resent := .again rfl someLeft rest.resent
  sends := sends_again isSome _ fair rest.sends
  accounts := Accounted.resend rfl fair rest.accounts
  reads := by
    rw [rest.reads, List.flatMap_cons, Exchange.itemsRead, List.append_assoc]

end Chunks

theorem readChunk_reads {policy : RetryPolicy} {retries attempt : Nat} {items : List Item}
    {pending : List KeyRef} {log : List Exchange} {outcome : BatchReadOutcome Item}
    (isSome : pending ≠ []) (fair : ∀ exchange ∈ log, exchange.LeavesOwnKeys)
    (completes : (readChunk policy retries attempt items pending).Completes log outcome) :
    ChunkReads retries items pending log outcome := by
  -- by induction on the retries that are left, for any items read before
  induction retries generalizing attempt items pending log with
  | zero =>
    unfold readChunk at completes
    obtain ⟨answer, rest, rfl, completed⟩ := Dialogue.completes_ask_iff.1 completes
    rw [List.forall_mem_cons] at fair
    cases answer with
    | error error =>
      obtain ⟨rfl, rfl⟩ := Dialogue.completes_done_iff.1 completed
      exact chunkReads_failed isSome 0 error
    | ok answer =>
      obtain ⟨rfl, rfl⟩ := Dialogue.completes_done_iff.1 completed
      exact chunkReads_left isSome fair.1 (.inl rfl)
  | succ retries inductionHypothesis =>
    unfold readChunk at completes
    obtain ⟨answer, rest, rfl, completed⟩ := Dialogue.completes_ask_iff.1 completes
    rw [List.forall_mem_cons] at fair
    match answer with
    | .error error =>
      obtain ⟨rfl, rfl⟩ := Dialogue.completes_done_iff.1 completed
      exact chunkReads_failed isSome (retries + 1) error
    | .ok ⟨more, []⟩ =>
      obtain ⟨rfl, rfl⟩ := Dialogue.completes_done_iff.1 completed
      exact chunkReads_left isSome fair.1 (.inr rfl)
    | .ok ⟨more, first :: unprocessed⟩ =>
      cases completed with
      | pause completed =>
        have someLeft := List.cons_ne_nil first unprocessed
        exact .resend isSome fair.1 someLeft (inductionHypothesis someLeft fair.2 completed)

/-! ## Whole batches -/

def numberedReads (connection : Connection) (keys : List KeyRef) : List (List KeyRef × Nat) :=
  (chunks connection.config.maxBatchReadItems keys).zipIdx

theorem length_of_mem_numberedReads {connection : Connection} {keys : List KeyRef}
    {chunk : List KeyRef × Nat} (isChunk : chunk ∈ connection.numberedReads keys) :
    1 ≤ chunk.1.length ∧ chunk.1.length ≤ max 1 connection.config.maxBatchReadItems :=
  length_of_mem_chunks (List.fst_mem_of_mem_zipIdx isChunk)

/-- The outcomes of the chunks of a batch read, each with its own exchanges. -/
structure ReadParts (connection : Connection) (keys : List KeyRef) (log : List (Exchange × Nat))
    (outcomes : List (BatchReadOutcome Item)) : Prop where
  ofChunks : List.Forall₂ (fun chunk outcome => ChunkReads connection.config.retry.maxRetries []
    chunk.1 (Tasks.exchangesOf chunk.2 log) outcome) (connection.numberedReads keys) outcomes
  sameLog : (log.map (·.1)).Perm
    ((connection.numberedReads keys).flatMap (Tasks.exchangesOf ·.2 log))

/-- Whatever the schedule, a batch read comes apart into its chunks. -/
theorem exists_readParts {connection : Connection} {keys : List KeyRef} {limit : Option Nat}
    {log : List (Exchange × Nat)} {results : List (BatchReadOutcome Item × Nat)}
    (schedule : Tasks.Schedule Exchange.LeavesOwnKeys (connection.batchReads keys limit).tasks log
      results 0) :
    ∃ outcomes, ReadParts connection keys log outcomes ∧ (results.map (·.1)).Perm outcomes := by
  obtain ⟨outcomes, completes, sameResults, sameLog⟩ := Pool.exists_outcomes schedule
  have zipIdx_eq : (connection.batchReads keys limit).dialogues.zipIdx =
      (connection.numberedReads keys).map fun chunk =>
        (readChunk connection.config.retry connection.config.retry.maxRetries 0 [] chunk.1, chunk.2) := by
    rw [batchReads, batchPool, List.zipIdx_map]
    rfl
  rw [zipIdx_eq] at completes sameLog
  rw [List.flatMap_map] at sameLog
  have fair : ∀ number, ∀ exchange ∈ Tasks.exchangesOf number log, exchange.LeavesOwnKeys :=
    fun number exchange isExchange => schedule.isAllowed _ (Tasks.mem_exchangesOf_iff.1 isExchange)
  have isSome : ∀ chunk ∈ connection.numberedReads keys, chunk.1 ≠ [] := fun chunk isChunk =>
    List.ne_nil_of_length_pos (length_of_mem_numberedReads isChunk).1
  have each := (List.forall₂_and_left _ _).2 ⟨isSome, List.forall₂_map_left_iff.1 completes⟩
  refine ⟨outcomes, ⟨?_, sameLog⟩, sameResults⟩
  exact each.imp fun chunk outcome both => readChunk_reads both.1 (fair chunk.2) both.2

namespace ReadParts

variable {connection : Connection} {keys : List KeyRef} {log : List (Exchange × Nat)}
  {outcomes : List (BatchReadOutcome Item)} (parts : ReadParts connection keys log outcomes)
include parts

theorem sizes {entry : Exchange × Nat} (isEntry : entry ∈ log) :
    ∃ asked, entry.1.call = .batchRead asked ∧ 1 ≤ asked.length ∧
      asked.length ≤ max 1 connection.config.maxBatchReadItems := by
  have isExchange := parts.sameLog.mem_iff.1 (List.mem_map_of_mem isEntry)
  obtain ⟨chunk, isChunk, isExchange⟩ := List.mem_flatMap.1 isExchange
  obtain ⟨outcome, reads⟩ := exists_forall₂_iff.1 ⟨_, parts.ofChunks⟩ chunk isChunk
  obtain ⟨asked, call_eq, isSome, isPart⟩ := reads.sends _ isExchange
  exact ⟨asked, call_eq, List.length_pos_iff.2 isSome,
    (Multiset.card_le_card isPart).trans (length_of_mem_numberedReads isChunk).2⟩

theorem resent {chunk : List KeyRef × Nat} (isChunk : chunk ∈ connection.numberedReads keys) :
    Resent .batchRead Exchange.keysLeft connection.config.retry.maxRetries chunk.1
      (Tasks.exchangesOf chunk.2 log) := by
  obtain ⟨outcome, reads⟩ := exists_forall₂_iff.1 ⟨_, parts.ofChunks⟩ chunk isChunk
  exact reads.resent

theorem accounts : (BatchReadOutcome.join outcomes).Accounts (log.map (·.1)) keys := by
  have ofChunks := BatchReadOutcome.accounts_join (fun chunk => Multiset.ofList chunk.1) <|
    parts.ofChunks.imp fun chunk outcome reads => reads.accounts
  rw [numberedReads, sum_chunks] at ofChunks
  exact ofChunks.perm parts.sameLog.symm (.refl _)

theorem items :
    (BatchReadOutcome.join outcomes).items.Perm ((log.map (·.1)).flatMap (·.itemsRead)) := by
  have items_eq : (BatchReadOutcome.join outcomes).items =
      ((connection.numberedReads keys).flatMap (Tasks.exchangesOf ·.2 log)).flatMap (·.itemsRead) := by
    have ofChunks := parts.ofChunks
    clear parts
    generalize connection.numberedReads keys = chunks at ofChunks
    induction ofChunks with
    | nil => rfl
    | cons first _ inductionHypothesis =>
      rw [BatchReadOutcome.join_cons, first.reads, inductionHypothesis, List.nil_append,
        List.flatMap_cons, List.flatMap_append]
  rw [items_eq]
  exact (parts.sameLog.flatMap_right _).symm

end ReadParts

/-- What becomes of the keys of a batch read: the exchanges of its chunks, and the outcome. -/
structure ReadsFor (connection : Connection) (keys : List KeyRef) (log : List (Exchange × Nat))
    (outcome : BatchReadOutcome LogicalItem) : Prop where
  /-- All calls are reads; none is empty, and none is larger than the limit. -/
  sizes : ∀ entry ∈ log, ∃ asked, entry.1.call = .batchRead asked ∧ 1 ≤ asked.length ∧
    asked.length ≤ max 1 connection.config.maxBatchReadItems
  /-- Each chunk is sent, and sent again while something of it is left and the retries allow it. -/
  resent : ∀ chunk ∈ connection.numberedReads keys,
    Resent .batchRead Exchange.keysLeft connection.config.retry.maxRetries chunk.1
      (Tasks.exchangesOf chunk.2 log)
  /-- No chunk is sent more often than the retries allow. -/
  attempts : ∀ chunk ∈ connection.numberedReads keys,
    (Tasks.exchangesOf chunk.2 log).length ≤ connection.config.retry.maxRetries + 1
  /-- No key is lost, and none is counted twice. -/
  accounts : outcome.Accounts (log.map (·.1)) keys
  /-- Every item that was read is handed out once: attributed to its entity, or unchanged if it has
  none or cannot be converted. -/
  items : ∃ kept,
    List.Forall₂ (connection.registry.Keeps connection.engine)
      ((log.map (·.1)).flatMap (·.itemsRead)) kept ∧
      outcome.items.Perm kept

/-- Whatever the store answers and in whatever order the chunks of a batch read go on, they come to
an outcome that accounts for all keys and has all items that were read. -/
theorem batchReads_accounts (connection : Connection) (keys : List KeyRef) (limit : Option Nat) :
    (connection.batchReads keys limit).Certainly Exchange.LeavesOwnKeys fun log results =>
      connection.ReadsFor keys log (connection.attributed (.join (results.map (·.1)))) := by
  refine Pool.certainly_of_schedule ?_ ?_
  · -- every call can fail
    intro call
    exact ⟨.error (.missingTable "*"), by cases call <;> trivial⟩
  · intro log results schedule
    obtain ⟨outcomes, parts, sameResults⟩ := exists_readParts schedule
    refine ⟨fun _ => parts.sizes, fun _ => parts.resent,
      fun _ isChunk => (parts.resent isChunk).length_le,
      parts.accounts.perm (.refl _) sameResults.symm,
      ((log.map (·.1)).flatMap (·.itemsRead)).map
        (connection.registry.toLogicalItemOrUnknown connection.engine), ?_, ?_⟩
    · rw [List.forall₂_map_right_iff, List.forall₂_same]
      exact fun item _ => connection.registry.keeps_toLogicalItemOrUnknown connection.engine item
    · -- the order in which the chunks are done is the order of their items
      have sameItems : (BatchReadOutcome.join (results.map (·.1))).items.Perm
          (BatchReadOutcome.join outcomes).items := sameResults.flatMap_right _
      exact (sameItems.trans parts.items).map _

end Connection

end SingleTable
