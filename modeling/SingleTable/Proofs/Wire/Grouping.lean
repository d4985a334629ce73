import Mathlib.Data.List.Count
import Mathlib.Data.List.Induction
import Mathlib.Data.Multiset.MapFold
import SingleTable.Wire.Request

/-!
# Things under their tables

The calls for several tables carry their things grouped by table, and the service answers them grouped
by table as well.  Grouping keeps the order of what is for one table (`get?_byTable`), and neither
grouping nor the way back loses anything or adds anything: how often a thing is in the groups is how
often it is in the group of its table (`count_ungrouped`).
-/

namespace SingleTable

theorem NameMap.get?_map {α β : Type} (f : α → β) (m : NameMap α) (name : String) :
    (m.map f).get? name = (m.get? name).map f := by
  apply Option.ext
  intro value
  rw [get?_eq_some_iff, Option.map_eq_some_iff]
  simp [map, get?_eq_some_iff]

namespace Wire

variable {α β : Type}

def groupOf (groups : NameMap (List α)) (table : String) : List α := (groups.get? table).getD []

def forTable (table : String) (things : List (String × α)) : List α :=
  (things.filter fun thing => thing.1 = table).map (·.2)

def ungrouped (groups : NameMap (List α)) : List (String × α) :=
  groups.entries.flatMap fun (table, group) => group.map fun thing => (table, thing)

theorem groupOf_of_mem {groups : NameMap (List α)} {entry : String × List α}
    (isEntry : entry ∈ groups.entries) : groupOf groups entry.1 = entry.2 := by
  rw [groupOf, NameMap.get?_eq_some_iff.2 isEntry, Option.getD_some]

/-- What is in a group that lies within another is in the other. -/
theorem mem_of_within {groups others : NameMap (List α)} {entry : String × List α} {thing : α}
    (within : ∀ table, (groupOf groups table : Multiset α) ≤ groupOf others table)
    (isEntry : entry ∈ groups.entries) (isMember : thing ∈ entry.2) : thing ∈ groupOf others entry.1 := by
  have isMember : thing ∈ (groupOf groups entry.1 : Multiset α) := by
    rwa [groupOf_of_mem isEntry, Multiset.mem_coe]
  exact Multiset.mem_coe.1 (Multiset.mem_of_le (within entry.1) isMember)

/-! ## Grouping -/

theorem byTable_concat (things : List (String × α)) (table : String) (thing : α) :
    byTable (things ++ [(table, thing)]) =
      (byTable things).insert table (groupOf (byTable things) table ++ [thing]) := by
  simp [byTable, groupOf]

theorem forTable_concat (table : String) (things : List (String × α)) (thing : String × α) :
    forTable table (things ++ [thing]) =
      forTable table things ++ if thing.1 = table then [thing.2] else [] := by
  by_cases same : thing.1 = table <;> simp [forTable, List.filter_append, same]

/-- What is for a table among things that tell their table. -/
theorem forTable_map (tableOf : α → String) (content : α → β) (table : String) (things : List α) :
    forTable table (things.map fun thing => (tableOf thing, content thing)) =
      (things.filter fun thing => tableOf thing = table).map content := by
  rw [forTable, List.filter_map, List.map_map]
  rfl

/-- There is a group for each table that something is for, with what is for that table in its order. -/
theorem get?_byTable (things : List (String × α)) (table : String) :
    (byTable things).get? table =
      if (forTable table things).isEmpty then none else some (forTable table things) := by
  -- groups grow at their ends, so the last thing is the one to split off
  induction things using List.reverseRecOn with
  | nil => rfl
  | append_singleton things thing inductionHypothesis =>
    obtain ⟨other, thing⟩ := thing
    rw [byTable_concat, NameMap.get?_insert, forTable_concat]
    by_cases same : other = table
    · subst same
      have group_eq : groupOf (byTable things) other = forTable other things := by
        rw [groupOf, inductionHypothesis]
        cases forTable other things <;> rfl
      simp [group_eq]
    · simp [same, inductionHypothesis]

theorem groupOf_byTable (things : List (String × α)) (table : String) :
    groupOf (byTable things) table = forTable table things := by
  rw [groupOf, get?_byTable]
  cases forTable table things <;> rfl

/-- There is a group for a table if something is for it. -/
theorem contains_byTable (things : List (String × α)) (table : String) :
    (byTable things).contains table = things.any fun thing => thing.1 = table := by
  rw [NameMap.contains, get?_byTable]
  cases own : things.any fun thing => thing.1 = table with
  | false =>
    have none_own : forTable table things = [] := by
      rw [forTable, List.map_eq_nil_iff, List.filter_eq_nil_iff]
      simpa using own
    rw [none_own]
    rfl
  | true =>
    obtain ⟨thing, isThing, isOwn⟩ := List.any_eq_true.1 own
    have isMember : thing.2 ∈ forTable table things :=
      List.mem_map_of_mem (List.mem_filter.2 ⟨isThing, isOwn⟩)
    cases forTable_eq : forTable table things with
    | nil => simp [forTable_eq] at isMember
    | cons => rfl

/-- What is done to each thing may be done before it is grouped. -/
theorem byTable_map (f : α → β) (things : List (String × α)) :
    byTable (things.map fun thing => (thing.1, f thing.2)) = (byTable things).map (List.map f) := by
  apply NameMap.ext_get?
  intro table
  have forTable_eq : forTable table (things.map fun thing => (thing.1, f thing.2)) =
      (forTable table things).map f := by
    rw [forTable_map Prod.fst (fun thing => f thing.2), forTable, List.map_map]
    rfl
  rw [NameMap.get?_map, get?_byTable, get?_byTable, forTable_eq]
  cases forTable table things <;> rfl

/-- A part of some things has a part of each of their groups. -/
theorem groupOf_byTable_le {things others : List (String × α)}
    (within : (things : Multiset (String × α)) ≤ others) (table : String) :
    (groupOf (byTable things) table : Multiset α) ≤ groupOf (byTable others) table := by
  rw [groupOf_byTable, groupOf_byTable]
  exact Multiset.map_le_map (Multiset.coe_le.2 ((Multiset.coe_le.1 within).filter _))

/-! ## Counting -/

section Counting

variable [DecidableEq α]

theorem count_map_table (group : List α) (table other : String) (thing : α) :
    (group.map fun thing => (table, thing)).count (other, thing) =
      if table = other then group.count thing else 0 := by
  by_cases same : table = other
  · subst same
    rw [if_pos rfl]
    exact List.count_map_of_injective group (Prod.mk table)
      (fun _ _ same => (Prod.mk.inj same).2) thing
  · rw [if_neg same, List.count_eq_zero]
    simp [same]

/-- A thing is in the groups as often as in the group of its table. -/
theorem count_ungrouped (groups : NameMap (List α)) (table : String) (thing : α) :
    (ungrouped groups).count (table, thing) = (groupOf groups table).count thing := by
  obtain ⟨entries, sorted⟩ := groups
  change (entries.flatMap _).count _ = ((NameMap.findEntry table entries).getD []).count thing
  induction entries with
  | nil => rfl
  | cons entry entries inductionHypothesis =>
    obtain ⟨name, group⟩ := entry
    obtain ⟨below, sorted⟩ := List.pairwise_cons.1 sorted
    rw [List.flatMap_cons, List.count_append, inductionHypothesis sorted, count_map_table,
      NameMap.findEntry]
    by_cases same : name = table
    · subst same
      have absent : NameMap.findEntry name entries = none := by
        refine Option.eq_none_iff_forall_ne_some.2 fun value found => ?_
        have isEntry := (NameMap.findEntry_eq_some_iff sorted).1 found
        exact String.lt_irrefl name (below (name, value) isEntry)
      simp [absent]
    · simp [same]

theorem count_forTable (things : List (String × α)) (table : String) (thing : α) :
    (forTable table things).count thing = things.count (table, thing) := by
  induction things with
  | nil => rfl
  | cons first things inductionHypothesis =>
    obtain ⟨other, first⟩ := first
    rw [List.count_cons, ← inductionHypothesis]
    by_cases same : other = table
    · simp [forTable, same, List.count_cons]
    · simp [forTable, same]

/-- Groups with the same things under each table hold the same things. -/
theorem ungrouped_le {groups others : NameMap (List α)}
    (within : ∀ table, (groupOf groups table : Multiset α) ≤ groupOf others table) :
    (ungrouped groups : Multiset (String × α)) ≤ ungrouped others := by
  refine Multiset.coe_le.2 (List.subperm_ext_iff.2 fun (table, thing) _ => ?_)
  rw [count_ungrouped, count_ungrouped]
  exact (Multiset.coe_le.1 (within table)).count_le thing

/-- Each thing is grouped once, under its own table. -/
theorem ungrouped_byTable (things : List (String × α)) : (ungrouped (byTable things)).Perm things := by
  refine List.perm_iff_count.2 fun (table, thing) => ?_
  rw [count_ungrouped, groupOf_byTable, count_forTable]

/-- Groups that lie within the groups of some things hold a part of these things. -/
theorem ungrouped_le_of_within {groups : NameMap (List α)} {things : List (String × α)}
    (within : ∀ table, (groupOf groups table : Multiset α) ≤ groupOf (byTable things) table) :
    (ungrouped groups : Multiset (String × α)) ≤ things := by
  rw [← Multiset.coe_eq_coe.2 (ungrouped_byTable things)]
  exact ungrouped_le within

end Counting

end Wire

end SingleTable
