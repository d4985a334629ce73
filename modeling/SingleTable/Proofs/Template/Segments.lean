import SingleTable.Proofs.Expression.Token
import SingleTable.Template

/-!
# Templates of one placeholder

The template of a uniqueness record is a fixed text that ends in a placeholder.  It is cut where
it looks as if it were, provided that nothing in the fixed text opens a placeholder.
-/

namespace SingleTable

/-! ## Blanks -/

namespace Text

theorem trim_eq {cs : List Char} (noBlank : ∀ c ∈ cs, isBlank c = false) : trim cs = cs := by
  have kept : ∀ {ds : List Char}, (∀ c ∈ ds, isBlank c = false) → ds.dropWhile isBlank = ds := by
    intro ds noBlank
    cases ds with
    | nil => rfl
    | cons c ds => rw [List.dropWhile_cons_of_neg (by simp [noBlank c (by simp)])]
  rw [trim, kept noBlank, kept (by simpa using noBlank), List.reverse_reverse]

end Text

namespace Template

variable {mark : Char}

/-! ## Cutting -/

theorem splitPair_of_not_mem {cs : List Char} (absent : mark ∉ cs) : splitPair mark cs = none := by
  cases split_eq : splitPair mark cs with
  | none => rfl
  | some found => exact absurd (splitPair_eq split_eq ▸ by simp) absent

/-- Texts without a pair have none between them if another character stands there. -/
theorem splitPair_between {before after : List Char} {c : Char} (differs : c ≠ mark)
    (noneBefore : splitPair mark before = none) (noneAfter : splitPair mark after = none) :
    splitPair mark (before ++ c :: after) = none := by
  induction before with
  | nil =>
    cases after with
    | nil => rfl
    | cons d after => simp [splitPair, differs, noneAfter]
  | cons first before inductionHypothesis =>
    cases before with
    | nil =>
      have noneHere := inductionHypothesis rfl
      simp only [List.nil_append] at noneHere
      simp [splitPair, differs, noneHere]
    | cons second before =>
      rw [splitPair] at noneBefore
      split at noneBefore
      · cases noneBefore
      · next notHere =>
        rw [Option.map_eq_none_iff] at noneBefore
        have noneHere := inductionHypothesis noneBefore
        rw [List.cons_append] at noneHere
        simp [splitPair, notHere, noneHere]

theorem splitPair_append {before after : List Char} (noneBefore : splitPair mark before = none)
    (apart : before.getLast? ≠ some mark) :
    splitPair mark (before ++ mark :: mark :: after) = some (before, after) := by
  induction before with
  | nil => simp [splitPair]
  | cons first before inductionHypothesis =>
    cases before with
    | nil =>
      -- the pair could begin one character earlier only if the text ended with the mark
      have differs : first ≠ mark := by
        intro same
        exact apart (by simp [same])
      simp [splitPair, differs]
    | cons second before =>
      rw [splitPair] at noneBefore
      split at noneBefore
      · cases noneBefore
      · next notHere =>
        rw [Option.map_eq_none_iff] at noneBefore
        have cut := inductionHypothesis noneBefore (by simpa using apart)
        rw [List.cons_append] at cut
        simp [splitPair, notHere, cut]

/-- The segments of a fixed text that ends in a placeholder. -/
theorem segments_closing {before raw : List Char} (noneBefore : splitPair '\x7b' before = none)
    (apart : before.getLast? ≠ some '\x7b') (noneInside : splitPair '\x7d' raw = none)
    (apartInside : raw.getLast? ≠ some '\x7d') :
    segments (before ++ '\x7b' :: '\x7b' :: (raw ++ ['\x7d', '\x7d'])) =
      literal before ++ [.placeholder raw] := by
  have opened : splitPair '\x7b' (before ++ '\x7b' :: '\x7b' :: (raw ++ ['\x7d', '\x7d'])) =
      some (before, raw ++ ['\x7d', '\x7d']) := splitPair_append noneBefore apart
  have closed : splitPair '\x7d' (raw ++ ['\x7d', '\x7d']) = some (raw, []) :=
    splitPair_append noneInside apartInside
  rw [segments]
  split
  · next none_eq => rw [opened] at none_eq; cases none_eq
  · next first inner cut_eq =>
    rw [opened] at cut_eq
    obtain ⟨rfl, rfl⟩ := Prod.mk.inj (Option.some.inj cut_eq)
    split
    · next none_eq => rw [closed] at none_eq; cases none_eq
    · next name rest cut_eq =>
      rw [closed] at cut_eq
      obtain ⟨rfl, rfl⟩ := Prod.mk.inj (Option.some.inj cut_eq)
      simp [segments, splitPair, literal]

end Template

end SingleTable
