/-!
# Maps keyed by attribute name

Items, placeholder bindings and the indexes of a table are finite maps from names.
No answer depends on the order in which such a map was filled, so the order is made
canonical: a `NameMap` is a list of entries whose names strictly increase.  Two maps
that agree under `get?` are therefore equal (`ext_get?`), and each operation below is
pinned down by what it does to `get?`.
-/

namespace SingleTable

/-- A finite map from names, its entries listed by increasing name. -/
structure NameMap (β : Type) where
  /-- The entries, by strictly increasing name. -/
  entries : List (String × β)
  /-- Names strictly increase, so each occurs once. -/
  sorted : entries.Pairwise (fun a b => a.1 < b.1)
  deriving DecidableEq

namespace NameMap

variable {β γ : Type}

/-! ## Entries in order -/

def insertEntry (name : String) (value : β) : List (String × β) → List (String × β)
  | [] => [(name, value)]
  | (n, v) :: rest =>
    if name < n then (name, value) :: (n, v) :: rest
    else if n < name then (n, v) :: insertEntry name value rest
    else (name, value) :: rest

theorem mem_insertEntry {name : String} {value : β} {e : String × β} :
    ∀ {entries : List (String × β)},
      e ∈ insertEntry name value entries → e = (name, value) ∨ e ∈ entries
  | [], isMember => .inl (List.mem_singleton.1 isMember)
  | (n, v) :: rest, isMember => by
    simp only [insertEntry] at isMember
    split at isMember
    · simpa using isMember
    · split at isMember
      · rcases List.mem_cons.1 isMember with isFirst | isLater
        · exact .inr (by simp [isFirst])
        · rcases mem_insertEntry isLater with isNew | isOld
          · exact .inl isNew
          · exact .inr (by simp [isOld])
      · rcases List.mem_cons.1 isMember with isNew | isOld
        · exact .inl isNew
        · exact .inr (by simp [isOld])

theorem eq_of_not_lt {a b : String} (notBelow : ¬ a < b) (notAbove : ¬ b < a) : a = b :=
  String.le_antisymm (Std.not_lt.1 notAbove) (Std.not_lt.1 notBelow)

theorem insertEntry_sorted (name : String) (value : β) :
    ∀ {entries : List (String × β)}, entries.Pairwise (fun a b => a.1 < b.1) →
      (insertEntry name value entries).Pairwise (fun a b => a.1 < b.1)
  | [], _ => by simp [insertEntry]
  | (n, v) :: rest, isSorted => by
    obtain ⟨below, sorted⟩ := List.pairwise_cons.1 isSorted
    simp only [insertEntry]
    split
    next isBelow =>
      refine List.pairwise_cons.2 ⟨fun e isMember => ?_, isSorted⟩
      rcases List.mem_cons.1 isMember with rfl | isLater
      · exact isBelow
      · exact String.lt_trans isBelow (below e isLater)
    next notBelow =>
      split
      next isAbove =>
        refine List.pairwise_cons.2 ⟨fun e isMember => ?_, insertEntry_sorted name value sorted⟩
        rcases mem_insertEntry isMember with rfl | isOld
        · exact isAbove
        · exact below e isOld
      next notAbove =>
        obtain rfl := eq_of_not_lt notBelow notAbove
        exact List.pairwise_cons.2 ⟨below, sorted⟩

def findEntry (name : String) : List (String × β) → Option β
  | [] => none
  | (n, v) :: rest => if n = name then some v else findEntry name rest

theorem findEntry_insertEntry (name : String) (value : β) (other : String) :
    ∀ entries : List (String × β), (insertEntry name value entries).Pairwise (·.1 < ·.1) →
      findEntry other (insertEntry name value entries) =
        if name = other then some value else findEntry other entries
  | [], _ => rfl
  | (n, v) :: rest, isSorted => by
    simp only [insertEntry] at isSorted ⊢
    split
    next => rfl
    next notBelow =>
      split
      next isAbove =>
        simp only [notBelow, isAbove, if_true, if_false] at isSorted
        have inductionHypothesis :=
          findEntry_insertEntry name value other rest (List.pairwise_cons.1 isSorted).2
        by_cases isFirst : n = other
        · -- the new name is above this one, so it is not the one that is looked for
          have differs : name ≠ other := by
            rintro rfl
            exact String.lt_irrefl n (isFirst ▸ isAbove)
          simp [findEntry, isFirst, differs]
        · simp [findEntry, isFirst, inductionHypothesis]
      next notAbove =>
        obtain rfl := eq_of_not_lt notBelow notAbove
        by_cases same : name = other <;> simp [findEntry, same]

theorem findEntry_eq_some_iff {name : String} {value : β} :
    ∀ {entries : List (String × β)}, entries.Pairwise (fun a b => a.1 < b.1) →
      (findEntry name entries = some value ↔ (name, value) ∈ entries)
  | [], _ => by simp [findEntry]
  | (n, v) :: rest, isSorted => by
    obtain ⟨below, sorted⟩ := List.pairwise_cons.1 isSorted
    by_cases same : n = name
    · subst same
      have absent : (n, value) ∉ rest := fun isLater => String.lt_irrefl n (below (n, value) isLater)
      simp [findEntry, absent, eq_comm]
    · simp [findEntry, same, findEntry_eq_some_iff sorted, Ne.symm same]

/-- Sorted entry lists with the same members are the same list. -/
theorem eq_of_mem_iff :
    ∀ {entries others : List (String × β)}, entries.Pairwise (fun a b => a.1 < b.1) →
      others.Pairwise (fun a b => a.1 < b.1) → (∀ e, e ∈ entries ↔ e ∈ others) → entries = others
  | [], [], _, _, _ => rfl
  | [], e :: _, _, _, same => absurd ((same e).2 (by simp)) (by simp)
  | e :: _, [], _, _, same => absurd ((same e).1 (by simp)) (by simp)
  | e :: rest, e' :: rest', isSorted, isSorted', same => by
    obtain ⟨below, sorted⟩ := List.pairwise_cons.1 isSorted
    obtain ⟨below', sorted'⟩ := List.pairwise_cons.1 isSorted'
    have heads : e = e' := by
      rcases List.mem_cons.1 ((same e).1 (by simp)) with isFirst | isLater'
      · exact isFirst
      · rcases List.mem_cons.1 ((same e').2 (by simp)) with isFirst | isLater
        · exact isFirst.symm
        · exact absurd (String.lt_trans (below _ isLater) (below' _ isLater')) (String.lt_irrefl _)
    subst heads
    have tails : rest = rest' := by
      refine eq_of_mem_iff sorted sorted' fun other => ⟨fun isLater => ?_, fun isLater => ?_⟩
      · rcases List.mem_cons.1 ((same other).1 (List.mem_cons_of_mem _ isLater)) with rfl | isLater'
        · exact absurd (below _ isLater) (String.lt_irrefl _)
        · exact isLater'
      · rcases List.mem_cons.1 ((same other).2 (List.mem_cons_of_mem _ isLater)) with rfl | isLater'
        · exact absurd (below' _ isLater) (String.lt_irrefl _)
        · exact isLater'
    rw [tails]

/-! ## Operations -/

def empty : NameMap β := ⟨[], .nil⟩

instance : EmptyCollection (NameMap β) := ⟨empty⟩

instance : Inhabited (NameMap β) := ⟨∅⟩

def get? (m : NameMap β) (name : String) : Option β := findEntry name m.entries

def contains (m : NameMap β) (name : String) : Bool := (m.get? name).isSome

def insert (m : NameMap β) (name : String) (value : β) : NameMap β :=
  ⟨insertEntry name value m.entries, insertEntry_sorted name value m.sorted⟩

def filter (keep : String → β → Bool) (m : NameMap β) : NameMap β :=
  ⟨m.entries.filter (fun e => keep e.1 e.2), m.sorted.filter _⟩

def erase (m : NameMap β) (name : String) : NameMap β :=
  m.filter fun n _ => n != name

def map (f : β → γ) (m : NameMap β) : NameMap γ :=
  ⟨m.entries.map fun e => (e.1, f e.2), List.pairwise_map.2 m.sorted⟩

/-- Insert entries from left to right; a later entry of the same name wins. -/
def insertAll (m : NameMap β) (entries : List (String × β)) : NameMap β :=
  entries.foldl (fun m e => m.insert e.1 e.2) m

/-- The map of some entries; of two entries of one name the later wins. -/
def ofList (entries : List (String × β)) : NameMap β := insertAll ∅ entries

/-- All entries of both maps; where both have a name, the value of `other`. -/
def union (m other : NameMap β) : NameMap β := m.insertAll other.entries

def names (m : NameMap β) : List String := m.entries.map Prod.fst

def isEmpty (m : NameMap β) : Bool := m.entries.isEmpty

def size (m : NameMap β) : Nat := m.entries.length

/-- The map itself, or nothing when it has no entry. -/
def nonempty? (m : NameMap β) : Option (NameMap β) := if m.isEmpty then none else some m

/-! ## What each operation does to `get?` -/

@[simp] theorem get?_empty (name : String) : (∅ : NameMap β).get? name = none := rfl

theorem get?_insert (m : NameMap β) (name : String) (value : β) (other : String) :
    (m.insert name value).get? other = if name = other then some value else m.get? other :=
  findEntry_insertEntry name value other m.entries (insertEntry_sorted name value m.sorted)

@[simp] theorem get?_insert_self (m : NameMap β) (name : String) (value : β) :
    (m.insert name value).get? name = some value := by simp [get?_insert]

theorem get?_insert_of_ne (m : NameMap β) {name other : String} (value : β)
    (differs : name ≠ other) : (m.insert name value).get? other = m.get? other := by
  simp [get?_insert, differs]

theorem get?_insert_of_free {m : NameMap β} {name other : String} {bound : β} (value : β)
    (isFree : m.get? name = none) (isBound : m.get? other = some bound) :
    (m.insert name value).get? other = some bound := by
  have differs : name ≠ other := by
    rintro rfl
    rw [isFree] at isBound
    cases isBound
  rw [get?_insert_of_ne _ _ differs, isBound]

/-- A name has a value exactly when the entry is listed. -/
theorem get?_eq_some_iff {m : NameMap β} {name : String} {value : β} :
    m.get? name = some value ↔ (name, value) ∈ m.entries :=
  findEntry_eq_some_iff m.sorted

theorem get?_filter (keep : String → β → Bool) (m : NameMap β) (name : String) :
    (m.filter keep).get? name = (m.get? name).filter (keep name) := by
  apply Option.ext
  intro value
  rw [get?_eq_some_iff, Option.filter_eq_some_iff, get?_eq_some_iff]
  simp [filter, List.mem_filter]

theorem get?_erase (m : NameMap β) (name other : String) :
    (m.erase name).get? other = if name = other then none else m.get? other := by
  rw [erase, get?_filter]
  by_cases same : name = other
  · cases m.get? other <;> simp [same]
  · cases m.get? other <;> simp [same, Ne.symm same]

theorem get?_insertAll_of_not_mem {m : NameMap β} {entries : List (String × β)} {name : String}
    (notMember : name ∉ entries.map Prod.fst) : (m.insertAll entries).get? name = m.get? name := by
  induction entries generalizing m with
  | nil => rfl
  | cons entry entries inductionHypothesis =>
    simp only [List.map_cons, List.mem_cons, not_or] at notMember
    rw [insertAll, List.foldl_cons, ← insertAll, inductionHypothesis notMember.2,
      get?_insert_of_ne m entry.2 (Ne.symm notMember.1)]

theorem get?_insertAll_of_mem {m : NameMap β} {entries : List (String × β)}
    (nodup : (entries.map Prod.fst).Nodup) {name : String} {value : β}
    (isMember : (name, value) ∈ entries) : (m.insertAll entries).get? name = some value := by
  induction entries generalizing m with
  | nil => cases isMember
  | cons entry entries inductionHypothesis =>
    rw [List.map_cons, List.nodup_cons] at nodup
    rw [insertAll, List.foldl_cons, ← insertAll]
    rcases List.mem_cons.1 isMember with rfl | isLater
    · rw [get?_insertAll_of_not_mem nodup.1, get?_insert_self]
    · exact inductionHypothesis nodup.2 isLater

theorem nodup_names (m : NameMap β) : (m.entries.map Prod.fst).Nodup := by
  refine (List.pairwise_map.2 m.sorted).imp ?_
  rintro a _ below rfl
  exact String.lt_irrefl a below

theorem get?_union (m other : NameMap β) (name : String) :
    (m.union other).get? name = (other.get? name).or (m.get? name) := by
  cases found : other.get? name with
  | none =>
    have absent : name ∉ other.entries.map Prod.fst := by
      intro isMember
      obtain ⟨⟨n, value⟩, isEntry, rfl⟩ := List.mem_map.1 isMember
      rw [get?_eq_some_iff.2 isEntry] at found
      cases found
    rw [union, get?_insertAll_of_not_mem absent, Option.none_or]
  | some value =>
    rw [union, get?_insertAll_of_mem other.nodup_names (get?_eq_some_iff.1 found), Option.some_or]

/-- Maps that agree on every name are equal. -/
theorem ext_get? {m m' : NameMap β} (agree : ∀ name, m.get? name = m'.get? name) : m = m' := by
  have entries_eq : m.entries = m'.entries :=
    eq_of_mem_iff m.sorted m'.sorted fun e => by
      rw [← get?_eq_some_iff (m := m), ← get?_eq_some_iff (m := m'), agree]
  cases m
  cases m'
  simpa using entries_eq

/-! ## Layers -/

theorem union_assoc (m first second : NameMap β) :
    (m.union first).union second = m.union (first.union second) := by
  apply ext_get?
  intro name
  rw [get?_union, get?_union, get?_union, get?_union, Option.or_assoc]

/-- Inserting entries is the same as laying their map over a map. -/
theorem insertAll_eq_union (m : NameMap β) (entries : List (String × β)) :
    m.insertAll entries = m.union (ofList entries) := by
  induction entries generalizing m with
  | nil => rfl
  | cons entry entries inductionHypothesis =>
    have ofList_eq : (ofList (entry :: entries) : NameMap β) =
        ((∅ : NameMap β).insert entry.1 entry.2).union (ofList entries) := inductionHypothesis _
    rw [insertAll, List.foldl_cons, ← insertAll, inductionHypothesis, ofList_eq]
    apply ext_get?
    intro name
    rw [get?_union, get?_union, get?_union, get?_insert, get?_insert]
    by_cases same : entry.1 = name <;> cases (ofList entries).get? name <;> simp [same]

/-- The map of some entries has a value for the name of each. -/
theorem contains_ofList {entries : List (String × β)} {name : String}
    (isMember : name ∈ entries.map Prod.fst) : (ofList entries).contains name = true := by
  induction entries with
  | nil => cases isMember
  | cons entry entries inductionHypothesis =>
    rw [contains, ofList, insertAll, List.foldl_cons, ← insertAll, insertAll_eq_union, get?_union,
      Option.isSome_or, Bool.or_eq_true]
    rcases List.mem_cons.1 isMember with rfl | isMember
    · exact .inr (by rw [get?_insert_self, Option.isSome_some])
    · exact .inl (inductionHypothesis isMember)

end NameMap

end SingleTable
