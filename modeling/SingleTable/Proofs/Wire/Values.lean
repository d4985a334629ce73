import SingleTable.Proofs.Entity.Layout
import SingleTable.Wire.Base64

/-!
# Values on the wire

What is written is read back as it was: bytes through base 64 (`decode_encode`), and from them every
value whose kind is known (`readValue_writeValue`) and every item (`item_ofItem`).  The fields of a map
come back in the order of their names, so a value comes back as it was only if its maps list their
fields in this order (`Value.IsOrdered`), as those of all values do that were read.
-/

namespace SingleTable

namespace Wire

/-! ## Base 64 -/

theorem value64?_digit64 : ∀ value < 64, value64? (digit64 value) = some value := by decide +kernel

theorem digit64_ne : ∀ value < 64, digit64 value ≠ '=' := by decide +kernel

/-- The digits of bytes stand for these bytes. -/
theorem decode_encode (bytes : List UInt8) : decode64 (encode64 bytes) = some bytes := by
  induction bytes using encode64.induct with
  | case1 => rfl
  | case2 a =>
    have bound := a.toNat_lt
    have digits_eq : a.toNat * 16 / 64 * 64 + a.toNat * 16 % 64 = a.toNat * 16 := by omega
    rw [encode64, decode64, value64?_digit64 _ (by omega), value64?_digit64 _ (by omega)]
    simp [digits_eq]
  | case3 a b =>
    have boundA := a.toNat_lt
    have boundB := b.toNat_lt
    rw [encode64]
    generalize number_eq : (a.toNat * 256 + b.toNat) * 4 = number
    have digits_eq : (number / 4096 * 64 + number / 64 % 64) * 64 + number % 64 = number := by omega
    have first_eq : number / 1024 = a.toNat := by omega
    have second_eq : number / 4 % 256 = b.toNat := by omega
    rw [decode64.eq_3 _ _ _ (digit64_ne _ (by omega)), value64?_digit64 _ (by omega),
      value64?_digit64 _ (by omega), value64?_digit64 _ (by omega)]
    have filled : number % 4 = 0 := by omega
    simp [digits_eq, first_eq, second_eq, filled]
  | case4 a b c rest inductionHypothesis =>
    have boundA := a.toNat_lt
    have boundB := b.toNat_lt
    have boundC := c.toNat_lt
    rw [encode64]
    generalize number_eq : (a.toNat * 256 + b.toNat) * 256 + c.toNat = number
    have digits_eq : ((number / 262144 * 64 + number / 4096 % 64) * 64 + number / 64 % 64) * 64
        + number % 64 = number := by omega
    have first_eq : number / 65536 = a.toNat := by omega
    have second_eq : number / 256 % 256 = b.toNat := by omega
    have third_eq : number % 256 = c.toNat := by omega
    have goesOn (isEnd : digit64 (number % 64) = '=') : False := digit64_ne _ (by omega) isEnd
    rw [decode64.eq_4 _ _ _ _ _ (fun _ isEnd _ => goesOn isEnd) (fun isEnd _ => goesOn isEnd),
      value64?_digit64 _ (by omega), value64?_digit64 _ (by omega), value64?_digit64 _ (by omega),
      value64?_digit64 _ (by omega), inductionHypothesis]
    simp [digits_eq, first_eq, second_eq, third_eq]

end Wire

/-! ## Values -/

namespace Value

mutual

/-- The maps of a value list their fields by increasing name. -/
def IsOrdered : Value → Prop
  | list elements => AllOrdered elements
  | map fields => fields.Pairwise (fun first second => first.1 < second.1) ∧ AllFieldsOrdered fields
  | string _ | number _ | binary _ | boolean _ | null _ | stringSet _ | numberSet _ | binarySet _
  | unknown => True

def AllOrdered : List Value → Prop
  | [] => True
  | value :: values => value.IsOrdered ∧ AllOrdered values

def AllFieldsOrdered : List (String × Value) → Prop
  | [] => True
  | (_, value) :: fields => value.IsOrdered ∧ AllFieldsOrdered fields

end

end Value

/-- The map of the entries of a map is that map. -/
theorem NameMap.ofList_entries {β : Type} (m : NameMap β) : ofList m.entries = m := by
  apply ext_get?
  intro name
  change ((∅ : NameMap β).union m).get? name = _
  rw [get?_union, get?_empty, Option.or_none]

/-- Entries in order are the entries of their map. -/
theorem NameMap.entries_ofList {β : Type} {entries : List (String × β)}
    (sorted : entries.Pairwise fun first second => first.1 < second.1) :
    (ofList entries).entries = entries :=
  congrArg NameMap.entries (ofList_entries ⟨entries, sorted⟩)

def ByteNotation.IsLossless (codec : ByteNotation) : Prop :=
  ∀ bytes, codec.read? (codec.write bytes).toList = some bytes

namespace Form

/-! ## Members -/

section Members

variable {members : List (String × Document)} {name : String}

theorem member?_object_of_mem {d : Document} (nodup : (members.map Prod.fst).Nodup)
    (isMember : (name, d) ∈ members) (isSome : d ≠ .null) : member? (object members) name = some d := by
  have found : (object members).member? name = some d := NameMap.get?_insertAll_of_mem nodup isMember
  rw [member?, found]
  cases d with
  | null => exact absurd rfl isSome
  | boolean | integer | real | string | array | object => rfl

theorem member?_object_of_not_mem (isAbsent : name ∉ members.map Prod.fst) :
    member? (object members) name = none := by
  have found : (object members).member? name = none := NameMap.get?_insertAll_of_not_mem isAbsent
  rw [member?, found]

end Members

variable {codec : ByteNotation}

/-- The value of one member is the value of its kind. -/
theorem readValue_single {kind : String} {d : Document} {value : Value} (counts : kind ≠ "__type")
    (isSome : d ≠ .null) (reads : readKind codec kind d = .ok value) :
    readValue codec (.object [(kind, d)]) = .ok value := by
  rw [readValue, readKinds.eq_4 codec kind d [] isSome counts, reads, readKinds]
  rfl

/-- Things that are each read as they were written are so in an array. -/
theorem list_array {α : Type} {read : Document → Reading α} {write : α → Document} {things : List α}
    (reads : ∀ thing ∈ things, read (write thing) = .ok thing) :
    list read (array write things) = .ok things := by
  change (things.map write).mapM read = _
  induction things with
  | nil => rfl
  | cons thing things inductionHypothesis =>
    obtain ⟨first, others⟩ := List.forall_mem_cons.1 reads
    rw [List.map_cons, List.mapM_cons, first, inductionHypothesis others]
    rfl

/-- Things that are each read as they were written are so under their names. -/
theorem nameMap_ofNameMap {α : Type} {read : Document → Reading α} {write : α → Document}
    {m : NameMap α} (reads : ∀ entry ∈ m.entries, read (write entry.2) = .ok entry.2) :
    nameMap read (ofNameMap write m) = .ok m := by
  have mapped : (m.entries.map fun entry => (entry.1, write entry.2)).mapM
      (fun member => do return (member.1, ← read member.2) :
        String × Document → Reading (String × α)) = .ok m.entries := by
    generalize m.entries = entries at reads
    induction entries with
    | nil => rfl
    | cons entry entries inductionHypothesis =>
      obtain ⟨first, others⟩ := List.forall_mem_cons.1 reads
      rw [List.map_cons, List.mapM_cons, inductionHypothesis others, first]
      rfl
  exact bind_eq_ok.2 ⟨_, rfl, bind_eq_ok.2 ⟨_, mapped, congrArg Except.ok m.ofList_entries⟩⟩

theorem bytes_write (lossless : codec.IsLossless) (content : List UInt8) :
    bytes codec (.string (codec.write content)) = .ok content := by
  refine bind_eq_ok.2 ⟨codec.write content, rfl, ?_⟩
  rw [lossless content]
  rfl

mutual

/-- A value of known kinds is read as it was written. -/
theorem readValue_writeValue (lossless : codec.IsLossless) :
    ∀ {value : Value}, value.isKnown = true → value.IsOrdered →
      readValue codec (writeValue codec value) = .ok value
  | .string _, _, _ | .number _, _, _ | .boolean _, _, _ | .null _, _, _ => rfl
  | .binary content, _, _ => by
    refine readValue_single (by decide) nofun ?_
    rw [readKind, bytes_write lossless]
    rfl
  | .list elements, known, ordered => by
    refine readValue_single (by decide) nofun ?_
    rw [readKind, readValues_writeValues lossless known ordered]
    rfl
  | .map fields, known, ordered => by
    obtain ⟨sorted, ordered⟩ := ordered
    refine readValue_single (by decide) nofun ?_
    rw [readKind, readFields_writeFields lossless known ordered]
    -- fields are read in the order of the reply; of sorted ones the map is the same
    exact congrArg (Except.ok ∘ Value.map) (NameMap.entries_ofList sorted)
  | .stringSet members, _, _ | .numberSet members, _, _ => by
    have texts : list text (array .string members) = .ok members := list_array fun _ _ => rfl
    refine readValue_single (by decide) nofun ?_
    rw [readKind, texts]
    rfl
  | .binarySet members, _, _ => by
    refine readValue_single (by decide) nofun ?_
    rw [readKind, list_array fun content _ => bytes_write lossless content]
    rfl

theorem readValues_writeValues (lossless : codec.IsLossless) :
    ∀ {values : List Value}, Value.allKnown values = true → Value.AllOrdered values →
      readValues codec (writeValues codec values) = .ok values
  | [], _, _ => by rw [writeValues, readValues]
  | value :: values, known, ordered => by
    obtain ⟨isKnown, areKnown⟩ := Bool.and_eq_true_iff.1 known
    rw [writeValues, readValues, readValue_writeValue lossless isKnown ordered.1,
      readValues_writeValues lossless areKnown ordered.2]
    rfl

theorem readFields_writeFields (lossless : codec.IsLossless) :
    ∀ {fields : List (String × Value)}, Value.allFieldsKnown fields = true →
      Value.AllFieldsOrdered fields → readFields codec (writeFields codec fields) = .ok fields
  | [], _, _ => by rw [writeFields, readFields]
  | (name, value) :: fields, known, ordered => by
    obtain ⟨isKnown, areKnown⟩ := Bool.and_eq_true_iff.1 known
    rw [writeFields, readFields, readValue_writeValue lossless isKnown ordered.1,
      readFields_writeFields lossless areKnown ordered.2]
    rfl

end

end Form

/-! ## Items -/

namespace Item

/-- An item that can be sent and comes back as it was: its kinds are known, and its maps list their
fields by increasing name. -/
def IsReadable (item : Item) : Prop := item.isKnown = true ∧ Value.AllFieldsOrdered item.entries

end Item

theorem Value.each_of_fields {fields : List (String × Value)} (known : allFieldsKnown fields = true)
    (ordered : AllFieldsOrdered fields) :
    ∀ field ∈ fields, field.2.isKnown = true ∧ field.2.IsOrdered := by
  induction fields with
  | nil => simp
  | cons field fields inductionHypothesis =>
    obtain ⟨isKnown, areKnown⟩ := Bool.and_eq_true_iff.1 known
    exact List.forall_mem_cons.2 ⟨⟨isKnown, ordered.1⟩, inductionHypothesis areKnown ordered.2⟩

namespace Wire

theorem isLossless_base64 : base64.IsLossless := by
  intro bytes
  change decode64 (String.ofList (encode64 bytes)).toList = _
  rw [String.toList_ofList, decode_encode]

theorem readValue_base64 {value : Value} (known : value.isKnown = true) (ordered : value.IsOrdered) :
    Form.readValue base64 (Form.writeValue base64 value) = .ok value :=
  Form.readValue_writeValue isLossless_base64 known ordered

/-- An item is read as it was written. -/
theorem item_ofItem {content : Item} (readable : content.IsReadable) :
    item (ofItem content) = .ok content := by
  refine Form.nameMap_ofNameMap fun entry isEntry => ?_
  obtain ⟨known, ordered⟩ := Value.each_of_fields readable.1 readable.2 entry isEntry
  exact readValue_base64 known ordered

end Wire

end SingleTable
