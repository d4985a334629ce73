import Mathlib.Logic.Hydra
import SingleTable.Proofs.Store.Log

/-!
# Dialogues that run at once

The dialogues of a pool are tasks with numbers.  In a step, any one of them goes on by a call, a
pause or its end; a schedule is a sequence of steps.  Nothing is assumed about which task goes on
when, or how often, so the turns of `Pool.run` are one schedule among many (`Pool.exists_schedule`).

Every schedule comes to its end (`Tasks.wellFounded_step`), and whatever it is, each task has then
made its own way through its own exchanges (`Tasks.Schedule.apart`).
-/

namespace SingleTable

/-! ## Steps -/

/-- Dialogues under way, with their numbers. -/
abbrev Tasks (α : Type) := Multiset (Dialogue α × Nat)

namespace Tasks

variable {α : Type}

/-- One task goes on; what it asked and what it came to, if it did. -/
inductive Step (allowed : Exchange → Prop) :
    Tasks α → List (Exchange × Nat) → List (α × Nat) → Tasks α → Prop where
  | ask {call : Call} {resume : Except Error call.Answer → Dialogue α} {number : Nat}
      {others : Tasks α} {answer : Except Error call.Answer} (isAllowed : allowed ⟨call, answer⟩) :
      Step allowed ((.ask call resume, number) ::ₘ others) [(⟨call, answer⟩, number)] []
        ((resume answer, number) ::ₘ others)
  | pause {ceiling : Duration} {dialogue : Dialogue α} {number : Nat} {others : Tasks α} :
      Step allowed ((.pause ceiling dialogue, number) ::ₘ others) [] []
        ((dialogue, number) ::ₘ others)
  | finish {result : α} {number : Nat} {others : Tasks α} :
      Step allowed ((.done result, number) ::ₘ others) [] [(result, number)] others

/-- Several steps: what was asked, in order, and the results, in the order of completion. -/
inductive Schedule (allowed : Exchange → Prop) :
    Tasks α → List (Exchange × Nat) → List (α × Nat) → Tasks α → Prop where
  | stay (tasks : Tasks α) : Schedule allowed tasks [] [] tasks
  | step {tasks next last : Tasks α} {asked log : List (Exchange × Nat)}
      {finished results : List (α × Nat)} (step : Step allowed tasks asked finished next)
      (rest : Schedule allowed next log results last) :
      Schedule allowed tasks (asked ++ log) (finished ++ results) last

variable {allowed : Exchange → Prop} {tasks next last : Tasks α} {asked log : List (Exchange × Nat)}
  {finished results : List (α × Nat)}

theorem Schedule.trans {more : List (Exchange × Nat)} {later : List (α × Nat)}
    (schedule : Schedule allowed tasks log results next) (rest : Schedule allowed next more later last) :
    Schedule allowed tasks (log ++ more) (results ++ later) last := by
  induction schedule with
  | stay => exact rest
  | step step _ inductionHypothesis =>
    rw [List.append_assoc, List.append_assoc]
    exact .step step (inductionHypothesis rest)

theorem Schedule.isAllowed (schedule : Schedule allowed tasks log results last) :
    ∀ entry ∈ log, allowed entry.1 := by
  induction schedule with
  | stay => simp
  | step step _ inductionHypothesis =>
    intro entry isEntry
    rcases List.mem_append.1 isEntry with isAsked | isLater
    · cases step with
      | ask isAllowed =>
        obtain rfl := List.mem_singleton.1 isAsked
        exact isAllowed
      | pause => cases isAsked
      | finish => cases isAsked
    · exact inductionHypothesis entry isLater

/-! ## Every schedule ends -/

theorem exists_step (answers : ∀ call, ∃ answer, allowed ⟨call, answer⟩) (isSome : tasks ≠ 0) :
    ∃ asked finished next, Step allowed tasks asked finished next := by
  obtain ⟨⟨dialogue, number⟩, isTask⟩ := Multiset.exists_mem_of_ne_zero isSome
  obtain ⟨others, rfl⟩ := Multiset.exists_cons_of_mem isTask
  cases dialogue with
  | done result => exact ⟨_, _, _, .finish⟩
  | ask call resume =>
    obtain ⟨answer, isAllowed⟩ := answers call
    exact ⟨_, _, _, .ask isAllowed⟩
  | pause ceiling dialogue => exact ⟨_, _, _, .pause⟩

end Tasks

/-- A dialogue is what is left of another after a call or a pause. -/
inductive Dialogue.Follows {α : Type} : Dialogue α → Dialogue α → Prop where
  | ask (call : Call) (resume : Except Error call.Answer → Dialogue α)
      (answer : Except Error call.Answer) : Follows (resume answer) (.ask call resume)
  | pause (ceiling : Duration) (dialogue : Dialogue α) : Follows dialogue (.pause ceiling dialogue)

theorem Dialogue.wellFounded_follows {α : Type} : WellFounded (Follows (α := α)) := by
  refine ⟨fun dialogue => ?_⟩
  induction dialogue with
  | done result => exact ⟨_, fun _ follows => by cases follows⟩
  | ask call resume inductionHypothesis =>
    refine ⟨_, fun next follows => ?_⟩
    cases follows
    exact inductionHypothesis _
  | pause ceiling dialogue inductionHypothesis =>
    refine ⟨_, fun next follows => ?_⟩
    cases follows
    exact inductionHypothesis

namespace Tasks

variable {α : Type} {allowed : Exchange → Prop} {tasks next : Tasks α}
  {asked log : List (Exchange × Nat)} {finished results : List (α × Nat)}

/-- Tasks do not go on forever: each step replaces one by what is left of it. -/
theorem wellFounded_step (allowed : Exchange → Prop) :
    WellFounded fun next tasks : Tasks α => ∃ asked finished, Step allowed tasks asked finished next := by
  have byDialogue : WellFounded fun later earlier : Dialogue α × Nat => later.1.Follows earlier.1 :=
    InvImage.wf Prod.fst Dialogue.wellFounded_follows
  refine Subrelation.wf ?_ byDialogue.cutExpand
  rintro next tasks ⟨asked, finished, step⟩
  cases step with
  | @ask call resume _ others answer =>
    refine Relation.cutExpand_single_add ?_ others
    exact Dialogue.Follows.ask call resume answer
  | @pause ceiling dialogue _ others =>
    refine Relation.cutExpand_single_add ?_ others
    exact Dialogue.Follows.pause ceiling dialogue
  | @finish result number others =>
    exact ⟨0, (.done result, number), by simp, by rw [add_zero, add_comm, Multiset.singleton_add]⟩

/-! ## Each task for itself -/

def exchangesOf (number : Nat) (log : List (Exchange × Nat)) : List Exchange :=
  (log.filter (·.2 = number)).map (·.1)

theorem mem_exchangesOf_iff {number : Nat} {exchange : Exchange} :
    exchange ∈ exchangesOf number log ↔ (exchange, number) ∈ log := by
  simp [exchangesOf]

theorem exchangesOf_cons_self (exchange : Exchange) (number : Nat) (log : List (Exchange × Nat)) :
    exchangesOf number ((exchange, number) :: log) = exchange :: exchangesOf number log := by
  simp [exchangesOf]

theorem exchangesOf_cons_of_ne {number other : Nat} (differs : other ≠ number) (exchange : Exchange)
    (log : List (Exchange × Nat)) :
    exchangesOf number ((exchange, other) :: log) = exchangesOf number log := by
  simp [exchangesOf, differs]

theorem exchangesOf_eq_nil {number : Nat} (absent : ∀ entry ∈ log, entry.2 ≠ number) :
    exchangesOf number log = [] := by
  rw [exchangesOf, List.filter_eq_nil_iff.2 (by simpa using absent), List.map_nil]

/-- The exchanges are those of the tasks, and each task has come to one result by its own. -/
structure Apart (tasks : Tasks α) (log : List (Exchange × Nat)) (results : List (α × Nat)) : Prop where
  within : ∀ entry ∈ log, entry.2 ∈ tasks.map (·.2)
  numbers : (results.map (·.2) : Multiset Nat) = tasks.map (·.2)
  each : ∀ task ∈ tasks, ∃ result, (result, task.2) ∈ results ∧
    task.1.Completes (exchangesOf task.2 log) result

theorem Step.apart (step : Step allowed tasks asked finished next) (nodup : (tasks.map (·.2)).Nodup)
    (apart : Apart next log results) : Apart tasks (asked ++ log) (finished ++ results) := by
  cases step with
  | @ask call resume number others answer =>
    rw [Multiset.map_cons, Multiset.nodup_cons] at nodup
    refine ⟨?_, ?_, ?_⟩
    · intro entry isEntry
      rcases List.mem_cons.1 isEntry with rfl | isEntry
      · simp
      · simpa using apart.within entry isEntry
    · simpa using apart.numbers
    · intro task isTask
      -- the exchange belongs to the task that asked, and numbers tell the tasks apart
      rcases Multiset.mem_cons.1 isTask with rfl | isOther
      · obtain ⟨result, isResult, completes⟩ := apart.each _ (Multiset.mem_cons_self _ _)
        exact ⟨result, isResult, exchangesOf_cons_self _ _ log ▸ .ask completes⟩
      · obtain ⟨result, isResult, completes⟩ := apart.each _ (Multiset.mem_cons_of_mem isOther)
        have differs : number ≠ task.2 := by
          rintro rfl
          exact nodup.1 (Multiset.mem_map.2 ⟨task, isOther, rfl⟩)
        exact ⟨result, isResult, by rwa [List.singleton_append, exchangesOf_cons_of_ne differs]⟩
  | @pause ceiling dialogue number others =>
    refine ⟨by simpa using apart.within, by simpa using apart.numbers, ?_⟩
    intro task isTask
    rcases Multiset.mem_cons.1 isTask with rfl | isOther
    · obtain ⟨result, isResult, completes⟩ := apart.each _ (Multiset.mem_cons_self _ _)
      exact ⟨result, isResult, .pause completes⟩
    · exact apart.each task (Multiset.mem_cons_of_mem isOther)
  | @finish result number others =>
    rw [Multiset.map_cons, Multiset.nodup_cons] at nodup
    refine ⟨?_, ?_, ?_⟩
    · intro entry isEntry
      rw [Multiset.map_cons]
      exact Multiset.mem_cons_of_mem (apart.within entry isEntry)
    · rw [Multiset.map_cons, ← apart.numbers]
      rfl
    · intro task isTask
      rcases Multiset.mem_cons.1 isTask with rfl | isOther
      · -- what the others ask from now on is under other numbers
        refine ⟨result, by simp, ?_⟩
        rw [List.nil_append, exchangesOf_eq_nil]
        · exact .done result
        · rintro entry isEntry rfl
          exact nodup.1 (apart.within entry isEntry)
      · obtain ⟨outcome, isResult, completes⟩ := apart.each task isOther
        exact ⟨outcome, List.mem_cons_of_mem _ isResult, completes⟩

theorem Step.nodup (step : Step allowed tasks asked finished next) (nodup : (tasks.map (·.2)).Nodup) :
    (next.map (·.2)).Nodup := by
  cases step with
  | ask => simpa using nodup
  | pause => simpa using nodup
  | finish =>
    rw [Multiset.map_cons] at nodup
    exact (Multiset.nodup_cons.1 nodup).2

/-- Whatever the schedule, when all tasks are done each has run by itself. -/
theorem Schedule.apart (schedule : Schedule allowed tasks log results 0)
    (nodup : (tasks.map (·.2)).Nodup) : Apart tasks log results := by
  generalize none_eq : (0 : Tasks α) = last at schedule
  induction schedule with
  | stay tasks =>
    subst none_eq
    exact ⟨by simp, rfl, by simp⟩
  | step step _ inductionHypothesis =>
    exact step.apart nodup (inductionHypothesis (step.nodup nodup) none_eq)

end Tasks

/-! ## The turns of a pool -/

namespace Dialogue

variable {α σ : Type} {allowed : Exchange → Prop} (store : Store σ)
  (answers : ∀ call state, allowed ⟨call, (store call state).1⟩)

open Tasks (Schedule)

include answers

theorem schedule_advance (dialogue : Dialogue α) (number : Nat) (others : Tasks α) (state : σ) :
    ∃ log, Schedule allowed ((dialogue, number) ::ₘ others) log []
      (((dialogue.advance store state).1, number) ::ₘ others) := by
  induction dialogue generalizing state with
  | done result => exact ⟨_, .stay _⟩
  | ask call resume inductionHypothesis =>
    obtain ⟨log, schedule⟩ := inductionHypothesis (store call state).1 (store call state).2
    exact ⟨_, .step (.ask (answers call state)) schedule⟩
  | pause ceiling dialogue => exact ⟨_, .step .pause (.stay _)⟩

theorem schedule_run (dialogue : Dialogue α) (number : Nat) (others : Tasks α) (state : σ) :
    ∃ log, Schedule allowed ((dialogue, number) ::ₘ others) log
      [((dialogue.run store state).1, number)] others := by
  induction dialogue generalizing state with
  | done result => exact ⟨_, .step .finish (.stay _)⟩
  | ask call resume inductionHypothesis =>
    obtain ⟨log, schedule⟩ := inductionHypothesis (store call state).1 (store call state).2
    exact ⟨_, .step (.ask (answers call state)) schedule⟩
  | pause ceiling dialogue inductionHypothesis =>
    obtain ⟨log, schedule⟩ := inductionHypothesis state
    exact ⟨_, .step .pause schedule⟩

theorem schedule_runAll (tasks : List (Dialogue α × Nat)) (state : σ) :
    ∃ log results, Schedule allowed tasks log results 0 ∧
      (runAll store (tasks.map (·.1)) state).1 = results.map (·.1) := by
  induction tasks generalizing state with
  | nil => exact ⟨[], [], .stay _, rfl⟩
  | cons task tasks inductionHypothesis =>
    obtain ⟨first, runs⟩ := schedule_run store answers task.1 task.2 tasks state
    obtain ⟨log, results, schedule, results_eq⟩ := inductionHypothesis (task.1.run store state).2
    refine ⟨_, _, runs.trans schedule, ?_⟩
    simp [runAll, results_eq]

omit answers in
theorem perm_of_turn {width : Nat} {underWay waiting : List (Dialogue α × Nat)}
    {dialogue : Dialogue α} {underWay' waiting' : List (Dialogue α)}
    (isTurn : turn width (underWay.map (·.1)) (waiting.map (·.1)) = some (dialogue, underWay', waiting')) :
    ∃ number others more, underWay' = others.map (·.1) ∧ waiting' = more.map (·.1) ∧
      (underWay ++ waiting).Perm ((dialogue, number) :: (others ++ more)) := by
  match underWay, waiting with
  | [], [] => cases isTurn
  | [], next :: waiting =>
    cases isTurn
    exact ⟨next.2, [], waiting, rfl, rfl, .refl _⟩
  | paused :: underWay, [] =>
    cases isTurn
    exact ⟨paused.2, underWay, [], rfl, rfl, .refl _⟩
  | paused :: underWay, next :: waiting =>
    simp only [turn, List.map_cons] at isTurn
    split at isTurn
    · cases isTurn
      exact ⟨next.2, paused :: underWay, waiting, rfl, rfl, List.perm_middle⟩
    · cases isTurn
      exact ⟨paused.2, underWay, next :: waiting, rfl, rfl, .refl _⟩

omit answers in
theorem eq_nil_of_turn {width : Nat} {underWay waiting : List (Dialogue α)}
    (isOver : turn width underWay waiting = none) : underWay = [] ∧ waiting = [] := by
  match underWay, waiting with
  | [], [] => exact ⟨rfl, rfl⟩
  | [], next :: waiting => cases isOver
  | paused :: underWay, [] => cases isOver
  | paused :: underWay, next :: waiting =>
    simp only [turn] at isOver
    split at isOver <;> cases isOver

theorem schedule_runTurns (width turns : Nat) (underWay waiting : List (Dialogue α × Nat)) (state : σ) :
    ∃ log results, Schedule allowed (underWay ++ waiting : List (Dialogue α × Nat)) log results 0 ∧
      (runTurns store width turns (underWay.map (·.1)) (waiting.map (·.1)) state).1 =
        results.map (·.1) := by
  induction turns generalizing underWay waiting state with
  | zero =>
    obtain ⟨log, results, schedule, results_eq⟩ :=
      schedule_runAll store answers (underWay ++ waiting) state
    exact ⟨log, results, schedule, by rw [runTurns, ← List.map_append, results_eq]⟩
  | succ turns inductionHypothesis =>
    rw [runTurns]
    split
    · next isOver =>
      obtain ⟨underWay_eq, waiting_eq⟩ := eq_nil_of_turn isOver
      rw [List.map_eq_nil_iff.1 underWay_eq, List.map_eq_nil_iff.1 waiting_eq]
      exact ⟨[], [], .stay _, rfl⟩
    next dialogue underWay' waiting' isTurn =>
    obtain ⟨number, others, more, rfl, rfl, isPerm⟩ := perm_of_turn isTurn
    rw [Multiset.coe_eq_coe.2 isPerm]
    obtain ⟨first, advances⟩ := schedule_advance store answers dialogue number (others ++ more) state
    generalize dialogue.advance store state = advanced at advances
    obtain ⟨next, state⟩ := advanced
    -- what is not done has its next turn after the others under way
    have later : ∀ rest : Dialogue α, ∃ log results,
        Schedule allowed ((rest, number) ::ₘ (others ++ more : List (Dialogue α × Nat))) log results 0 ∧
          (runTurns store width turns (others.map (·.1) ++ [rest]) (more.map (·.1)) state).1 =
            results.map (·.1) := by
      intro rest
      obtain ⟨log, results, schedule, results_eq⟩ :=
        inductionHypothesis (others ++ [(rest, number)]) more state
      have isPerm : ((others ++ [(rest, number)]) ++ more).Perm ((rest, number) :: (others ++ more)) := by
        simp [List.perm_middle]
      rw [Multiset.coe_eq_coe.2 isPerm] at schedule
      exact ⟨log, results, schedule, by simpa using results_eq⟩
    cases next with
    | done result =>
      obtain ⟨log, results, schedule, results_eq⟩ := inductionHypothesis others more state
      refine ⟨_, _, advances.trans (.step .finish schedule), ?_⟩
      simp [results_eq]
    | ask call resume =>
      obtain ⟨log, results, schedule, results_eq⟩ := later (.ask call resume)
      exact ⟨_, _, advances.trans schedule, results_eq⟩
    | pause ceiling rest =>
      obtain ⟨log, results, schedule, results_eq⟩ := later (.pause ceiling rest)
      exact ⟨_, _, advances.trans schedule, results_eq⟩

end Dialogue

/-! ## Lists of tasks -/

section Lists

variable {α β : Type}

theorem exists_forall₂_iff {relation : α → β → Prop} {elements : List α} :
    (∃ results, List.Forall₂ relation elements results) ↔
      ∀ element ∈ elements, ∃ result, relation element result := by
  induction elements with
  | nil => simp
  | cons element elements inductionHypothesis =>
    rw [List.forall_mem_cons, ← inductionHypothesis]
    constructor
    · rintro ⟨_, isFirst | ⟨isFirst, areOthers⟩⟩
      exact ⟨⟨_, isFirst⟩, _, areOthers⟩
    · rintro ⟨⟨result, isFirst⟩, results, areOthers⟩
      exact ⟨result :: results, .cons isFirst areOthers⟩

theorem perm_of_forall₂ {numbers : List Nat} {outcomes : List α} {results : List (α × Nat)}
    (found : List.Forall₂ (fun number outcome => (outcome, number) ∈ results) numbers outcomes)
    (nodup : numbers.Nodup) (same : (results.map (·.2)).Perm numbers) :
    (results.map (·.1)).Perm outcomes := by
  have length_eq : numbers.length = outcomes.length := found.length_eq
  have numbers_eq : (outcomes.zip numbers).map Prod.snd = numbers :=
    List.map_snd_zip (Nat.le_of_eq length_eq)
  have outcomes_eq : (outcomes.zip numbers).map Prod.fst = outcomes :=
    List.map_fst_zip (Nat.le_of_eq length_eq.symm)
  have isSubperm : (outcomes.zip numbers).Subperm results := by
    refine List.Nodup.subperm (List.Nodup.of_map Prod.snd (by rwa [numbers_eq])) ?_
    rintro ⟨outcome, number⟩ isPair
    exact List.forall₂_zip found.flip isPair
  have isPerm : (outcomes.zip numbers).Perm results := by
    have results_length : results.length = numbers.length := by simpa using same.length_eq
    exact isSubperm.perm_of_length_le (by rw [List.length_zip, results_length, length_eq, Nat.min_self])
  rw [← outcomes_eq]
  exact (isPerm.map Prod.fst).symm

theorem perm_flatMap_exchangesOf {numbers : List Nat} (nodup : numbers.Nodup)
    {log : List (Exchange × Nat)} (within : ∀ entry ∈ log, entry.2 ∈ numbers) :
    (log.map (·.1)).Perm (numbers.flatMap (Tasks.exchangesOf · log)) := by
  induction log with
  | nil => simp [Tasks.exchangesOf]
  | cons entry log inductionHypothesis =>
    obtain ⟨exchange, number⟩ := entry
    have rest := inductionHypothesis fun entry isEntry => within entry (List.mem_cons_of_mem _ isEntry)
    obtain ⟨before, after, rfl⟩ := List.append_of_mem (within _ List.mem_cons_self)
    have elsewhere : ∀ numbers : List Nat, number ∉ numbers →
        numbers.flatMap (Tasks.exchangesOf · ((exchange, number) :: log)) =
          numbers.flatMap (Tasks.exchangesOf · log) := by
      intro numbers absent
      refine List.flatMap_congr fun other isOther => ?_
      exact Tasks.exchangesOf_cons_of_ne (by rintro rfl; exact absent isOther) exchange log
    have apart := List.nodup_middle.1 nodup
    rw [List.nodup_cons, List.mem_append, not_or] at apart
    rw [List.flatMap_append, List.flatMap_cons, Tasks.exchangesOf_cons_self, elsewhere before apart.1.1,
      elsewhere after apart.1.2]
    rw [List.flatMap_append, List.flatMap_cons] at rest
    exact (rest.cons exchange).trans List.perm_middle.symm

end Lists

namespace Pool

variable {α : Type}

def tasks (pool : Pool α) : Tasks α := pool.dialogues.zipIdx

theorem nodup_tasks (pool : Pool α) : (pool.tasks.map (·.2)).Nodup := by
  simp [tasks, List.nodup_range']

/-- Whatever the schedule, each dialogue of a pool comes to an outcome by its own exchanges; the
exchanges of all of them are all there are, and so are the outcomes. -/
theorem exists_outcomes {pool : Pool α} {allowed : Exchange → Prop} {log : List (Exchange × Nat)}
    {results : List (α × Nat)} (schedule : Tasks.Schedule allowed pool.tasks log results 0) :
    ∃ outcomes : List α,
      List.Forall₂ (fun task outcome => task.1.Completes (Tasks.exchangesOf task.2 log) outcome)
        pool.dialogues.zipIdx outcomes ∧
      (results.map (·.1)).Perm outcomes ∧
      (log.map (·.1)).Perm (pool.dialogues.zipIdx.flatMap fun task => Tasks.exchangesOf task.2 log) := by
  have apart := schedule.apart pool.nodup_tasks
  have nodup : (pool.dialogues.zipIdx.map (·.2)).Nodup := pool.nodup_tasks
  obtain ⟨outcomes, found⟩ := exists_forall₂_iff.2 apart.each
  refine ⟨outcomes, found.imp fun _ _ both => both.2, ?_, ?_⟩
  · refine perm_of_forall₂ ?_ nodup (Multiset.coe_eq_coe.1 apart.numbers)
    exact List.forall₂_map_left_iff.2 (found.imp fun _ _ both => both.1)
  · have isPerm := perm_flatMap_exchangesOf nodup apart.within
    rwa [List.flatMap_map] at isPerm

theorem exists_schedule {σ : Type} {allowed : Exchange → Prop} (store : Store σ)
    (answers : ∀ call state, allowed ⟨call, (store call state).1⟩) (pool : Pool α) (state : σ) :
    ∃ log results, Tasks.Schedule allowed pool.tasks log results 0 ∧
      (pool.run store state).1 = results.map (·.1) := by
  have scheduled := Dialogue.schedule_runTurns store answers pool.width pool.turns []
    pool.dialogues.zipIdx state
  rwa [List.zipIdx_map_fst] at scheduled

/-! ## Totality -/

/-- Whatever the schedule and whatever is answered, all dialogues of a pool are done after some
steps, and then something holds of the exchanges and the results. -/
structure Certainly (pool : Pool α) (allowed : Exchange → Prop)
    (holds : List (Exchange × Nat) → List (α × Nat) → Prop) : Prop where
  ends : Acc (fun next tasks => ∃ asked finished, Tasks.Step allowed tasks asked finished next)
    pool.tasks
  proceeds : ∀ log results tasks, Tasks.Schedule allowed pool.tasks log results tasks → tasks ≠ 0 →
    ∃ asked finished next, Tasks.Step allowed tasks asked finished next
  comes : ∀ log results, Tasks.Schedule allowed pool.tasks log results 0 → holds log results
  /-- In particular for the turns that the pool takes. -/
  runs : ∀ {σ : Type} (store : Store σ) (state : σ),
    (∀ call state, allowed ⟨call, (store call state).1⟩) →
      ∃ log results, holds log results ∧ (pool.run store state).1 = results.map (·.1)

theorem Certainly.imp {pool : Pool α} {allowed : Exchange → Prop}
    {holds holds' : List (Exchange × Nat) → List (α × Nat) → Prop}
    (certainly : pool.Certainly allowed holds)
    (implies : ∀ log results, holds log results → holds' log results) :
    pool.Certainly allowed holds' where
  ends := certainly.ends
  proceeds := certainly.proceeds
  comes := fun log results schedule => implies log results (certainly.comes log results schedule)
  runs := by
    intro σ store state answers
    obtain ⟨log, results, here, results_eq⟩ := certainly.runs store state answers
    exact ⟨log, results, implies log results here, results_eq⟩

theorem certainly_of_schedule {pool : Pool α} {allowed : Exchange → Prop}
    {holds : List (Exchange × Nat) → List (α × Nat) → Prop}
    (answers : ∀ call, ∃ answer, allowed ⟨call, answer⟩)
    (each : ∀ log results, Tasks.Schedule allowed pool.tasks log results 0 → holds log results) :
    pool.Certainly allowed holds where
  ends := (Tasks.wellFounded_step allowed).apply _
  proceeds := fun _ _ _ _ isSome => Tasks.exists_step answers isSome
  comes := each
  runs := by
    intro σ store state answers
    obtain ⟨log, results, schedule, results_eq⟩ := exists_schedule store answers pool state
    exact ⟨log, results, each log results schedule, results_eq⟩

end Pool

end SingleTable
