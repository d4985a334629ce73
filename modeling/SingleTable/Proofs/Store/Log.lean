import SingleTable.Store.Dialogue

/-!
# What passes between a dialogue and a store

The exchanges of a dialogue are its calls with their answers, in order.  `Dialogue.Completes` says
which exchanges can take a dialogue to which result: whatever a call is answered, the dialogue goes
on from there.  Each store singles out one such course (`Dialogue.completes_trace`).
-/

namespace SingleTable

/-- A call and what it was answered. -/
structure Exchange where
  call : Call
  answer : Except Error call.Answer

def Store.atRest (answers : (call : Call) → Except Error call.Answer) : Store Unit :=
  fun call _ => (answers call, ())

namespace Dialogue

variable {α β σ : Type}

/-- Some exchanges take a dialogue to its end, with a result. -/
inductive Completes : Dialogue α → List Exchange → α → Prop where
  | done (result : α) : Completes (.done result) [] result
  | ask {call : Call} {resume : Except Error call.Answer → Dialogue α} {answer : Except Error call.Answer}
      {log : List Exchange} {result : α} (rest : Completes (resume answer) log result) :
      Completes (.ask call resume) (⟨call, answer⟩ :: log) result
  | pause {ceiling : Duration} {dialogue : Dialogue α} {log : List Exchange} {result : α}
      (rest : Completes dialogue log result) : Completes (.pause ceiling dialogue) log result

theorem completes_done_iff {value result : α} {log : List Exchange} :
    (Dialogue.done value).Completes log result ↔ log = [] ∧ result = value := by
  constructor
  · rintro ⟨⟩
    exact ⟨rfl, rfl⟩
  · rintro ⟨rfl, rfl⟩
    exact .done result

theorem completes_ask_iff {call : Call} {resume : Except Error call.Answer → Dialogue α}
    {log : List Exchange} {result : α} :
    (Dialogue.ask call resume).Completes log result ↔
      ∃ answer rest, log = ⟨call, answer⟩ :: rest ∧ (resume answer).Completes rest result := by
  constructor
  · rintro ⟨⟩
    exact ⟨_, _, rfl, ‹_›⟩
  · rintro ⟨answer, rest, rfl, completes⟩
    exact .ask completes

/-- A dialogue with a continuation makes its own exchanges, and then those of the continuation. -/
theorem completes_bind_iff {dialogue : Dialogue α} {next : α → Dialogue β} {log : List Exchange}
    {result : β} :
    (dialogue.bind next).Completes log result ↔ ∃ value first second, log = first ++ second ∧
      dialogue.Completes first value ∧ (next value).Completes second result := by
  constructor
  · intro completes
    induction dialogue generalizing log with
    | done value => exact ⟨value, [], log, rfl, .done value, completes⟩
    | ask call resume inductionHypothesis =>
      obtain ⟨answer, rest, rfl, completed⟩ := completes_ask_iff.1 completes
      obtain ⟨value, first, second, rfl, own, others⟩ := inductionHypothesis answer completed
      exact ⟨value, ⟨call, answer⟩ :: first, second, rfl, .ask own, others⟩
    | pause ceiling rest inductionHypothesis =>
      cases completes with
      | pause completes =>
        obtain ⟨value, first, second, log_eq, own, others⟩ := inductionHypothesis completes
        exact ⟨value, first, second, log_eq, .pause own, others⟩
  · rintro ⟨value, first, second, rfl, own, others⟩
    induction own with
    | done value => exact others
    | ask _ inductionHypothesis => exact .ask (inductionHypothesis others)
    | pause _ inductionHypothesis => exact .pause (inductionHypothesis others)

theorem Completes.eq_of_append {dialogue : Dialogue α} {log log' rest rest' : List Exchange}
    {result result' : α} (completes : dialogue.Completes log result)
    (completes' : dialogue.Completes log' result') (same : log ++ rest = log' ++ rest') :
    log = log' ∧ rest = rest' ∧ result = result' := by
  -- what was answered decides what is asked next, so neither log can be a part of the other
  induction completes generalizing log' with
  | done result =>
    obtain ⟨rfl, rfl⟩ := completes_done_iff.1 completes'
    exact ⟨rfl, same, rfl⟩
  | ask _ inductionHypothesis =>
    obtain ⟨answer, others, rfl, completed⟩ := completes_ask_iff.1 completes'
    obtain ⟨exchange_eq, others_eq⟩ := List.cons.inj same
    obtain rfl := eq_of_heq (Exchange.mk.inj exchange_eq).2
    obtain ⟨rfl, rfl, rfl⟩ := inductionHypothesis completed others_eq
    exact ⟨rfl, rfl, rfl⟩
  | pause _ inductionHypothesis =>
    cases completes' with
    | pause completes' => exact inductionHypothesis completes' same

/-! ## With a store -/

def trace (store : Store σ) : Dialogue α → σ → List Exchange
  | done _, _ => []
  | ask call resume, state =>
    ⟨call, (store call state).1⟩ :: trace store (resume (store call state).1) (store call state).2
  | pause _ rest, state => trace store rest state

theorem completes_trace (store : Store σ) (dialogue : Dialogue α) (state : σ) :
    dialogue.Completes (dialogue.trace store state) (dialogue.run store state).1 := by
  induction dialogue generalizing state with
  | done result => exact .done result
  | ask call resume inductionHypothesis => exact .ask (inductionHypothesis _ _)
  | pause ceiling rest inductionHypothesis => exact .pause (inductionHypothesis state)

theorem run_bind (store : Store σ) (dialogue : Dialogue α) (next : α → Dialogue β) (state : σ) :
    (dialogue.bind next).run store state =
      (next (dialogue.run store state).1).run store (dialogue.run store state).2 := by
  induction dialogue generalizing state with
  | done result => rfl
  | ask call resume inductionHypothesis => exact inductionHypothesis _ _
  | pause ceiling rest inductionHypothesis => exact inductionHypothesis state

theorem trace_bind (store : Store σ) (dialogue : Dialogue α) (next : α → Dialogue β) (state : σ) :
    (dialogue.bind next).trace store state = dialogue.trace store state ++
      (next (dialogue.run store state).1).trace store (dialogue.run store state).2 := by
  induction dialogue generalizing state with
  | done result => rfl
  | ask call resume inductionHypothesis =>
    simp only [bind, trace, run, inductionHypothesis, List.cons_append]
  | pause ceiling rest inductionHypothesis => exact inductionHypothesis state

/-- A dialogue that was answered as a store at rest answers has made the exchanges that it makes with
this store alone. -/
theorem Completes.eq_trace {answers : (call : Call) → Except Error call.Answer}
    {dialogue : Dialogue α} {log : List Exchange} {result : α} (completes : dialogue.Completes log result)
    (answered : ∀ exchange ∈ log, exchange.answer = answers exchange.call) :
    dialogue.trace (.atRest answers) () = log ∧ (dialogue.run (.atRest answers) ()).1 = result := by
  induction completes with
  | done result => exact ⟨rfl, rfl⟩
  | @ask call resume answer log result _ inductionHypothesis =>
    rw [List.forall_mem_cons] at answered
    obtain rfl : answer = answers call := answered.1
    obtain ⟨trace_eq, run_eq⟩ := inductionHypothesis answered.2
    exact ⟨congrArg _ trace_eq, run_eq⟩
  | pause _ inductionHypothesis => exact inductionHypothesis answered

end Dialogue

/-! ## Operations -/

namespace Operation

variable {α β : Type}

theorem completes_pure_iff {value : α} {log : List Exchange} {result : Except Error α} :
    (pure value : Operation α).run.Completes log result ↔ log = [] ∧ result = .ok value :=
  Dialogue.completes_done_iff

theorem completes_throw_iff {error : Error} {log : List Exchange} {result : Except Error α} :
    (throw error : Operation α).run.Completes log result ↔ log = [] ∧ result = .error error :=
  Dialogue.completes_done_iff

theorem completes_ofExcept_iff {value : Except Error α} {log : List Exchange}
    {result : Except Error α} :
    (ofExcept value).run.Completes log result ↔ log = [] ∧ result = value :=
  Dialogue.completes_done_iff

theorem completes_ask_iff {call : Call} {log : List Exchange} {result : Except Error call.Answer} :
    (ask call).run.Completes log result ↔ log = [⟨call, result⟩] := by
  constructor
  · intro completes
    obtain ⟨answer, rest, rfl, completed⟩ := Dialogue.completes_ask_iff.1 completes
    obtain ⟨rfl, rfl⟩ := Dialogue.completes_done_iff.1 completed
    rfl
  · rintro rfl
    exact .ask (.done result)

theorem completes_bind_iff {operation : Operation α} {next : α → Operation β} {log : List Exchange}
    {result : Except Error β} :
    (operation >>= next).run.Completes log result ↔
      (∃ error, operation.run.Completes log (.error error) ∧ result = .error error) ∨
        ∃ value first second, log = first ++ second ∧ operation.run.Completes first (.ok value) ∧
          (next value).run.Completes second result := by
  refine Dialogue.completes_bind_iff.trans ?_
  constructor
  · rintro ⟨answer | value, first, second, rfl, own, others⟩
    · obtain ⟨rfl, rfl⟩ := Dialogue.completes_done_iff.1 others
      exact .inl ⟨answer, by rwa [List.append_nil], rfl⟩
    · exact .inr ⟨value, first, second, rfl, own, others⟩
  · rintro (⟨error, own, rfl⟩ | ⟨value, first, second, rfl, own, others⟩)
    · exact ⟨.error error, log, [], by rw [List.append_nil], own, .done _⟩
    · exact ⟨.ok value, first, second, rfl, own, others⟩

/-! ## With a store -/

/-- With a store in some state an operation makes some exchanges, has a result, and leaves the store
in a state. -/
def Yields {σ : Type} (operation : Operation α) (store : Store σ) (state : σ) (log : List Exchange)
    (result : Except Error α) (after : σ) : Prop :=
  operation.run.trace store state = log ∧ operation.run.run store state = (result, after)

section Yields

variable {σ : Type} {store : Store σ} {state middle after : σ} {log rest : List Exchange}

theorem yields_pure (value : α) : (pure value : Operation α).Yields store state [] (.ok value) state :=
  ⟨rfl, rfl⟩

theorem yields_ofExcept (result : Except Error α) :
    (ofExcept result).Yields store state [] result state :=
  ⟨rfl, rfl⟩

theorem yields_ask (call : Call) :
    (ask call).Yields store state [⟨call, (store call state).1⟩] (store call state).1
      (store call state).2 :=
  ⟨rfl, rfl⟩

theorem Yields.completes {operation : Operation α} {result : Except Error α}
    (own : operation.Yields store state log result after) : operation.run.Completes log result := by
  obtain ⟨trace_eq, run_eq⟩ := own
  have completes := Dialogue.completes_trace store operation.run state
  rwa [trace_eq, run_eq] at completes

theorem Yields.bind {operation : Operation α} {next : α → Operation β} {value : α}
    {result : Except Error β} (own : operation.Yields store state log (.ok value) middle)
    (others : (next value).Yields store middle rest result after) :
    (operation >>= next).Yields store state (log ++ rest) result after := by
  obtain ⟨trace_eq, run_eq⟩ := own
  constructor
  · refine (Dialogue.trace_bind store operation.run _ state).trans ?_
    rw [trace_eq, run_eq]
    exact congrArg (log ++ ·) others.1
  · refine (Dialogue.run_bind store operation.run _ state).trans ?_
    rw [run_eq]
    exact others.2

theorem Yields.bind_error {operation : Operation α} {next : α → Operation β} {error : Error}
    (own : operation.Yields store state log (.error error) after) :
    (operation >>= next).Yields store state log (.error error) after := by
  obtain ⟨trace_eq, run_eq⟩ := own
  constructor
  · refine (Dialogue.trace_bind store operation.run _ state).trans ?_
    rw [trace_eq, run_eq]
    exact List.append_nil log
  · refine (Dialogue.run_bind store operation.run _ state).trans ?_
    rw [run_eq]
    rfl

theorem Yields.map {operation : Operation α} {result : Except Error α} (f : α → β)
    (own : operation.Yields store state log result after) :
    (operation >>= fun value => pure (f value)).Yields store state log (f <$> result) after := by
  cases result with
  | error error => exact own.bind_error
  | ok value =>
    rw [← List.append_nil log]
    exact own.bind (yields_pure (f value))

end Yields

end Operation

end SingleTable
