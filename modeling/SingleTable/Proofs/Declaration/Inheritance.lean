import SingleTable.Proofs.Entity.Compiling

/-!
# Inherited attributes

Every call of `Declaration.inherit` takes the list of attributes apart and places it anew behind those
of the ancestor, so an attribute may have its position from one declaration and its content from
another.  What comes of it depends only on all declarations in a row, the ancestors of the last call
first: a name stands where it is first declared, with what is declared for it last
(`Declaration.attributes_inherit`).  What carries the induction over the calls is that attributes may be
placed before they are placed behind others (`Declaration.placeAttributes_placed`).
-/

namespace SingleTable.Declaration

variable {attr other : Attribute} {attributes added : List Attribute}

/-! ## Placing one attribute -/

theorem names_placeAttribute (attr : Attribute) (attributes : List Attribute) :
    (placeAttribute attr attributes).map (·.name) =
      if attr.name ∈ attributes.map (·.name) then attributes.map (·.name)
      else attributes.map (·.name) ++ [attr.name] := by
  induction attributes with
  | nil => simp [placeAttribute]
  | cons first rest inductionHypothesis =>
    by_cases same : first.name = attr.name
    · simp [placeAttribute, same]
    · have isElsewhere : attr.name ∈ (first :: rest).map (·.name) ↔ attr.name ∈ rest.map (·.name) := by
        simp [Ne.symm same]
      rw [placeAttribute, if_neg same, List.map_cons, inductionHypothesis]
      simp only [isElsewhere]
      split <;> rfl

theorem find?_placeAttribute (attr : Attribute) (attributes : List Attribute) (name : String) :
    (placeAttribute attr attributes).find? (·.name = name) =
      if attr.name = name then some attr else attributes.find? (·.name = name) := by
  induction attributes with
  | nil => by_cases isName : attr.name = name <;> simp [placeAttribute, isName]
  | cons first rest inductionHypothesis =>
    by_cases same : first.name = attr.name
    · by_cases isName : attr.name = name <;> simp [placeAttribute, same, isName]
    · simp only [placeAttribute, same, if_false, List.find?_cons, inductionHypothesis]
      by_cases isName : first.name = name
      · have differs : attr.name ≠ name := fun isAttr => same (isName.trans isAttr.symm)
        simp [isName, differs]
      · simp [isName]

/-- Of two attributes of one name the second takes the place of the first. -/
theorem placeAttribute_replaces (same : attr.name = other.name) (attributes : List Attribute) :
    placeAttribute attr (placeAttribute other attributes) = placeAttribute attr attributes := by
  induction attributes with
  | nil => simp [placeAttribute, same]
  | cons first rest inductionHypothesis =>
    by_cases isFirst : first.name = other.name
    · simp [placeAttribute, same, isFirst]
    · simp [placeAttribute, same, isFirst, inductionHypothesis]

/-- An attribute that has a place already takes it whether another one is placed before or after. -/
theorem placeAttribute_comm (differ : attr.name ≠ other.name)
    (hasPlace : attr.name ∈ attributes.map (·.name)) :
    placeAttribute attr (placeAttribute other attributes) =
      placeAttribute other (placeAttribute attr attributes) := by
  induction attributes with
  | nil => cases hasPlace
  | cons first rest inductionHypothesis =>
    by_cases isAttr : first.name = attr.name
    · have notOther : first.name ≠ other.name := fun isOther => differ (isAttr.symm.trans isOther)
      simp [placeAttribute, isAttr, differ]
    · have hasPlaceLater : attr.name ∈ rest.map (·.name) :=
        (List.mem_cons.1 hasPlace).resolve_left (Ne.symm isAttr)
      by_cases isOther : first.name = other.name
      · simp [placeAttribute, isOther, differ.symm]
      · simp [placeAttribute, isAttr, isOther, inductionHypothesis hasPlaceLater]

/-! ## Placing several attributes -/

theorem placeAttributes_cons (attributes : List Attribute) (attr : Attribute) (added : List Attribute) :
    placeAttributes attributes (attr :: added) =
      placeAttributes (placeAttribute attr attributes) added := rfl

theorem placeAttributes_concat (attributes added : List Attribute) (attr : Attribute) :
    placeAttributes attributes (added ++ [attr]) =
      placeAttribute attr (placeAttributes attributes added) := by
  simp [placeAttributes]

theorem placeAttributes_append (attributes first second : List Attribute) :
    placeAttributes attributes (first ++ second) =
      placeAttributes (placeAttributes attributes first) second :=
  List.foldl_append

theorem eraseDups_concat (names : List String) (name : String) :
    (names ++ [name]).eraseDups = if name ∈ names then names.eraseDups else names.eraseDups ++ [name] := by
  rw [List.eraseDups_append]
  by_cases isKnown : name ∈ names <;> simp [List.removeAll, List.eraseDups_cons, isKnown]

/-- A name stands where it is placed first. -/
theorem names_placed (declared : List Attribute) :
    (placeAttributes [] declared).map (·.name) = (declared.map (·.name)).eraseDups := by
  induction declared using List.reverseRecOn with
  | nil => rfl
  | append_singleton declared attr inductionHypothesis =>
    rw [placeAttributes_concat, names_placeAttribute, inductionHypothesis, List.map_append, List.map_singleton,
      eraseDups_concat]
    simp only [List.mem_eraseDups]

/-- What is found for a name is what is placed last. -/
theorem find?_placed (declared : List Attribute) (name : String) :
    (placeAttributes [] declared).find? (·.name = name) = declared.reverse.find? (·.name = name) := by
  induction declared using List.reverseRecOn with
  | nil => rfl
  | append_singleton declared attr inductionHypothesis =>
    rw [placeAttributes_concat, find?_placeAttribute, inductionHypothesis, List.reverse_append,
      List.reverse_singleton, List.singleton_append, List.find?_cons]
    by_cases isName : attr.name = name <;> simp [isName]

theorem placeAttribute_placeAttributes (hasPlace : attr.name ∈ attributes.map (·.name))
    (absent : attr.name ∉ added.map (·.name)) :
    placeAttribute attr (placeAttributes attributes added) =
      placeAttributes (placeAttribute attr attributes) added := by
  induction added generalizing attributes with
  | nil => rfl
  | cons first rest inductionHypothesis =>
    obtain ⟨differs, absent⟩ := not_or.1 (mt List.mem_cons.2 absent)
    have keepsPlace : attr.name ∈ (placeAttribute first attributes).map (·.name) := by
      rw [names_placeAttribute]
      split
      · exact hasPlace
      · exact List.mem_append_left _ hasPlace
    rw [placeAttributes_cons, placeAttributes_cons, inductionHypothesis keepsPlace absent,
      placeAttribute_comm differs hasPlace]

/-- An attribute may be placed among others before these are placed. -/
theorem placeAttributes_placeAttribute (nodup : (added.map (·.name)).Nodup)
    (attributes : List Attribute) (attr : Attribute) :
    placeAttributes attributes (placeAttribute attr added) =
      placeAttribute attr (placeAttributes attributes added) := by
  induction added generalizing attributes with
  | nil => rfl
  | cons first rest inductionHypothesis =>
    obtain ⟨absent, nodup⟩ := List.nodup_cons.1 nodup
    by_cases same : first.name = attr.name
    · -- placing `first` gives `attr` its place, and no later attribute is of their name
      have hasPlace : attr.name ∈ (placeAttribute first attributes).map (·.name) := by
        rw [names_placeAttribute, ← same]
        split
        · next isMember => exact isMember
        · simp
      replace absent : attr.name ∉ rest.map (·.name) := same.symm ▸ absent
      rw [placeAttribute, if_pos same, placeAttributes_cons, placeAttributes_cons,
        placeAttribute_placeAttributes hasPlace absent, placeAttribute_replaces same.symm]
    · simp only [placeAttribute, same, if_false, placeAttributes_cons]
      exact inductionHypothesis nodup _

/-- Attributes may be placed before they are placed behind others. -/
theorem placeAttributes_placed (attributes declared : List Attribute) :
    placeAttributes attributes (placeAttributes [] declared) = placeAttributes attributes declared := by
  induction declared using List.reverseRecOn with
  | nil => rfl
  | append_singleton declared attr inductionHypothesis =>
    have nodup : ((placeAttributes [] declared).map (·.name)).Nodup :=
      names_placed declared ▸ nodup_eraseDups _
    rw [placeAttributes_concat, placeAttributes_placeAttribute nodup, inductionHypothesis,
      placeAttributes_concat]

/-! ## Declaring and inheriting -/

section Calls

variable {declaration : Declaration} {declared : List Attribute}

theorem withAttribute_placed (isPlaced : declaration.attributes = placeAttributes [] declared)
    (attr : Attribute) :
    (declaration.withAttribute attr).attributes = placeAttributes [] (declared ++ [attr]) := by
  rw [placeAttributes_concat, ← isPlaced, withAttribute]

theorem inherit_placed (isPlaced : declaration.attributes = placeAttributes [] declared)
    (inherited : List Attribute) :
    (declaration.inherit inherited).attributes = placeAttributes [] (inherited ++ declared) := by
  rw [placeAttributes_append, ← placeAttributes_placed _ declared, ← isPlaced, inherit]

theorem foldl_withAttribute_placed (isPlaced : declaration.attributes = placeAttributes [] declared)
    (own : List Attribute) :
    (own.foldl withAttribute declaration).attributes = placeAttributes [] (declared ++ own) := by
  induction own generalizing declaration declared with
  | nil => simpa using isPlaced
  | cons attr own inductionHypothesis =>
    simpa using inductionHypothesis (withAttribute_placed isPlaced attr)

theorem foldl_inherit_placed (isPlaced : declaration.attributes = placeAttributes [] declared)
    (ancestors : List (List Attribute)) :
    (ancestors.foldl inherit declaration).attributes =
      placeAttributes [] (ancestors.reverse.flatten ++ declared) := by
  induction ancestors generalizing declaration declared with
  | nil => exact isPlaced
  | cons inherited ancestors inductionHypothesis =>
    simpa using inductionHypothesis (inherit_placed isPlaced inherited)

end Calls

/-- An attribute is declared, and nothing is declared for its name after it. -/
def IsLatest (declared : List Attribute) (attr : Attribute) : Prop :=
  ∃ earlier later, declared = earlier ++ attr :: later ∧ ∀ other ∈ later, other.name ≠ attr.name

theorem find?_reverse_iff {declared : List Attribute} {name : String} :
    declared.reverse.find? (·.name = name) = some attr ↔ IsLatest declared attr ∧ attr.name = name := by
  rw [List.find?_eq_some_iff_append, decide_eq_true_eq, and_comm]
  refine and_congr_left ?_
  rintro rfl
  constructor
  · rintro ⟨later, earlier, reverse_eq, none⟩
    refine ⟨earlier.reverse, later.reverse, ?_, ?_⟩
    · rw [← List.reverse_reverse declared, reverse_eq]
      simp
    · simpa using none
  · rintro ⟨earlier, later, rfl, none⟩
    exact ⟨later.reverse, earlier.reverse, by simp, by simpa using none⟩

/-- If no name stands twice, every attribute is found under its name. -/
theorem find?_name_iff (nodup : (attributes.map (·.name)).Nodup) :
    attributes.find? (·.name = attr.name) = some attr ↔ attr ∈ attributes := by
  refine ⟨List.mem_of_find?_eq_some, fun isMember => ?_⟩
  obtain ⟨before, after, rfl⟩ := List.append_of_mem isMember
  refine List.find?_eq_some_iff_append.2 ⟨by simp, before, after, rfl, fun other isBefore => ?_⟩
  rw [List.map_append, List.nodup_append] at nodup
  have differs := nodup.2.2 other.name (List.mem_map_of_mem isBefore) attr.name (by simp)
  simpa using differs

/-- Attributes are declared one by one and then those of some ancestors are inherited, each list in its
turn.  Of all declarations in a row, those of the last list first and its own last, each name stands once
and where it is first declared, and what is kept and found for it is what is declared last. -/
theorem attributes_inherit (declaration : Declaration) (own : List Attribute)
    (ancestors : List (List Attribute)) :
    let declared := ancestors.reverse.flatten ++ own
    let result := ancestors.foldl inherit (own.foldl withAttribute { declaration with attributes := [] })
    FirstMentions (result.attributes.map (·.name)) (declared.map (·.name)) ∧
      (∀ attr, attr ∈ result.attributes ↔ IsLatest declared attr) ∧
      ∀ name attr, result.attribute? name = some attr ↔ IsLatest declared attr ∧ attr.name = name := by
  intro declared result
  have nothingPlaced : { declaration with attributes := [] }.attributes = placeAttributes [] [] := rfl
  have isPlaced : result.attributes = placeAttributes [] declared :=
    foldl_inherit_placed (foldl_withAttribute_placed nothingPlaced own) ancestors
  have names_eq := names_placed declared
  have found_iff : ∀ name attr, result.attribute? name = some attr ↔
      IsLatest declared attr ∧ attr.name = name := by
    intro name attr
    rw [attribute?, isPlaced, find?_placed, find?_reverse_iff]
  refine ⟨?_, fun attr => ?_, found_iff⟩
  · rw [isPlaced, names_eq]
    exact firstMentions_eraseDups _
  · -- as no name stands twice, what is there is what is found
    have nodup : (result.attributes.map (·.name)).Nodup := by
      rw [isPlaced, names_eq]
      exact nodup_eraseDups _
    rw [← find?_name_iff nodup, ← attribute?, found_iff, and_iff_left rfl]

/-- What is declared again keeps the place that the ancestor has for it. -/
example :
    ((({ name := "Admin", key := ⟨.text "ADMIN", none⟩ } : Declaration).withAttribute
        { name := "created", type := .string }).withAttribute { name := "role", type := .enumeration }
      |>.inherit [{ name := "id", type := .string }, { name := "created", type := .number }]).attributes.map
        (fun attr => (attr.name, attr.type)) =
      [("id", .string), ("created", .string), ("role", .enumeration)] := by
  decide

end SingleTable.Declaration
