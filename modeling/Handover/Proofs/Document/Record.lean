import Handover.Document.FieldValue
import Handover.Document.Record
import Mathlib.Data.List.Forall2

/-!
# Ways to write a record

A record may be written with any of its usual fields left out and with any fields added
whose names it does not know.  However it is written, every named field ends up in its
slot with an admissible value, or the slot stays free where the field may be left out.
-/

namespace Handover.Document

variable {α : Type}

/-! ## Values -/

/-- Named values that are the same for all fields. -/
def FieldValue.ofEntries (entries : List (String × Node α)) : List (String × FieldValue α) :=
  entries.map fun entry => (entry.1, .ofNode entry.2)

namespace Node

theorem scalar?_of_eq [Scalar α] {value : α} (node : Node α) (same : node = .float value) :
    node.scalar? = some value := by
  rw [same, scalar?]

theorem text?_of_eq {value : String} (node : Node α) (same : node = .text value) :
    node.text? = some value := by
  rw [same, text?]

theorem uint8?_of_eq {value : UInt8} (node : Node α) (same : node = .natural value.toNat) :
    node.uint8? = some value := by
  rw [same, uint8?, natBelow?, if_pos value.toNat_lt, Option.map_some, UInt8.ofNat_toNat]

theorem uint32?_of_eq {value : UInt32} (node : Node α) (same : node = .natural value.toNat) :
    node.uint32? = some value := by
  rw [same, uint32?, natBelow?, if_pos value.toNat_lt, Option.map_some, UInt32.ofNat_toNat]

theorem uint64?_of_eq {value : UInt64} (node : Node α) (same : node = .natural value.toNat) :
    node.uint64? = some value := by
  rw [same, uint64?, natBelow?, if_pos value.toNat_lt, Option.map_some, UInt64.ofNat_toNat]

/-- The fields of a record, each the same to whoever reads it. -/
theorem fields?_record (entries : List (String × Node α)) :
    (record entries).fields? = some (FieldValue.ofEntries entries) := by
  rw [record, fields?, List.mapM_map]
  exact List.mapM_pure

variable {τ : Type} {Form : τ → Node α → Prop} {write : τ → Node α} {read : Node α → Option τ}

/-- The node is a list of forms of the values. -/
def IsListOf (Form : τ → Node α → Prop) (values : List τ) (node : Node α) : Prop :=
  ∃ items, node = .list items ∧ List.Forall₂ Form values items

theorem isListOf_map (forms : ∀ value, Form value (write value))
    (values : List τ) : IsListOf Form values (.list (values.map write)) :=
  ⟨_, rfl, List.forall₂_map_right_iff.mpr (List.forall₂_same.mpr fun value _ => forms value)⟩

theorem listOf?_of_isListOf (reads : ∀ value node, Form value node → read node = some value)
    {values : List τ} (node : Node α) (listed : IsListOf Form values node) :
    node.listOf? read = some values := by
  obtain ⟨items, rfl, forms⟩ := listed
  rw [listOf?]
  induction forms with
  | nil => rfl
  | cons form _ ih =>
      rw [List.mapM_cons, reads _ _ form, ih]
      rfl

/-- The node is a form of the value, or null if there is none. -/
def IsOptionOf (Form : τ → Node α → Prop) (value : Option τ) (node : Node α) : Prop :=
  match value with
  | none => node = .null
  | some value => node ≠ .null ∧ Form value node

theorem isOptionOf_ofOption
    (forms : ∀ value, write value ≠ .null ∧ Form value (write value)) (value : Option τ) :
    IsOptionOf Form value (ofOption write value) := by
  cases value with
  | none => rfl
  | some value => exact forms value

theorem nullable?_of_isOptionOf (reads : ∀ value node, Form value node → read node = some value)
    {value : Option τ} (node : Node α) (optional : IsOptionOf Form value node) :
    node.nullable? read = some value := by
  cases value with
  | none =>
      cases optional
      rfl
  | some value =>
      obtain ⟨present, form⟩ := optional
      have read := reads _ _ form
      cases node with
      | null => exact absurd rfl present
      | _ => exact congrArg (Option.map some) read

end Node

/-! ## Fields -/

/-- A field of a record as it may be written. -/
structure FieldForm (α : Type) where
  /-- Its name. -/
  name : String
  /-- What may stand under the name. -/
  Allows : Node α → Prop
  /-- It may be left out. -/
  Omissible : Prop

namespace FieldForm

/-- A field that has to be there. -/
def must (name : String) (Allows : Node α → Prop) : FieldForm α :=
  ⟨name, Allows, False⟩

/-- A field that may be left out if it has its usual value. -/
def may {τ : Type} (name : String) (usual value : τ) (Allows : Node α → Prop) : FieldForm α :=
  ⟨name, Allows, value = usual⟩

/-- A slot holds an admissible value, or it is free and may be. -/
def Fits (field : FieldForm α) : Option (Node α) → Prop
  | none => field.Omissible
  | some node => field.Allows node

theorem required?_of_fits {τ : Type} {name : String} {Allows : Node α → Prop}
    {read : Node α → Option τ} {value : τ} {slot : Option (Node α)}
    (fits : (must name Allows).Fits slot) (reads : ∀ node, Allows node → read node = some value) :
    Record.required? read slot = some value := by
  cases slot with
  | none => exact fits.elim
  | some node => exact reads node fits

theorem optional?_of_fits {τ : Type} {name : String} {usual value : τ}
    {Allows : Node α → Prop} {read : Node α → Option τ} {slot : Option (Node α)}
    (fits : (may name usual value Allows).Fits slot)
    (reads : ∀ node, Allows node → read node = some value) :
    Record.optional? usual read slot = some value := by
  cases slot with
  | none => exact congrArg some (Eq.symm fits)
  | some node => exact reads node fits

end FieldForm

/-- The entries write the fields in order, leaving out what may be left out, with entries
of unknown names anywhere between. -/
inductive Written (known : List String) : List (FieldForm α) → List (String × Node α) → Prop
  | nil : Written known [] []
  | kept {field fields node entries} (allowed : field.Allows node)
      (rest : Written known fields entries) :
      Written known (field :: fields) ((field.name, node) :: entries)
  | omitted {field fields entries} (usual : field.Omissible)
      (rest : Written known fields entries) : Written known (field :: fields) entries
  | added {fields entries name node} (unknown : name ∉ known)
      (rest : Written known fields entries) : Written known fields ((name, node) :: entries)

/-- The node writes the fields of a record that knows no others. -/
def IsRecord (fields : List (FieldForm α)) (node : Node α) : Prop :=
  ∃ entries, node = .record entries ∧ Written (fields.map FieldForm.name) fields entries

namespace Written

variable {known : List String} {fields : List (FieldForm α)} {entries : List (String × Node α)}

/-- Entries chosen by name write the fields chosen by name. -/
theorem filter (written : Written known fields entries) (test : String → Bool) :
    Written known (fields.filter fun field => test field.name)
      (entries.filter fun entry => test entry.1) := by
  induction written with
  | nil => exact .nil
  | @kept field fields node entries allowed rest ih =>
      simp only [List.filter_cons]
      by_cases chosen : test field.name = true
      · rw [if_pos chosen, if_pos chosen]
        exact .kept allowed ih
      · rw [if_neg chosen, if_neg chosen]
        exact ih
  | @omitted field fields entries usual rest ih =>
      simp only [List.filter_cons]
      by_cases chosen : test field.name = true
      · rw [if_pos chosen]
        exact .omitted usual ih
      · rw [if_neg chosen]
        exact ih
  | @added fields entries name node unknown rest ih =>
      simp only [List.filter_cons]
      by_cases chosen : test name = true
      · rw [if_pos chosen]
        exact .added unknown ih
      · rw [if_neg chosen]
        exact ih

/-- Entries of known names write nothing beside their fields. -/
theorem eq_nil (written : Written known [] entries) (within : ∀ entry ∈ entries, entry.1 ∈ known) :
    entries = [] := by
  cases written with
  | nil => rfl
  | added unknown rest => exact absurd (within _ List.mem_cons_self) unknown

/-- A single field is written by one entry or left out. -/
theorem single {field : FieldForm α} (written : Written known [field] entries)
    (within : ∀ entry ∈ entries, entry.1 ∈ known) :
    entries = [] ∧ field.Omissible ∨
      ∃ node, entries = [(field.name, node)] ∧ field.Allows node := by
  cases written with
  | kept allowed rest =>
      rw [List.forall_mem_cons] at within
      rw [rest.eq_nil within.2]
      exact .inr ⟨_, rfl, allowed⟩
  | omitted usual rest => exact .inl ⟨rest.eq_nil within, usual⟩
  | added unknown rest => exact absurd (within _ List.mem_cons_self) unknown

/-- The entries under a name that only one field has. -/
theorem named {name : String} {field : FieldForm α} (written : Written known fields entries)
    (alone : fields.filter (·.name = name) = [field]) (within : name ∈ known) :
    entries.filter (·.1 = name) = [] ∧ field.Omissible ∨
      ∃ node, entries.filter (·.1 = name) = [(field.name, node)] ∧ field.Allows node := by
  have chosen := written.filter (· = name)
  rw [alone] at chosen
  refine chosen.single fun entry member => ?_
  rw [of_decide_eq_true (List.mem_filter.mp member).2]
  exact within

/-! ## Slots -/

theorem idxOf?_append_cons {names : List String} {name : String} (first : name ∉ names)
    (rest : List String) : (names ++ name :: rest).idxOf? name = some names.length := by
  induction names with
  | nil => simp [List.idxOf?_cons]
  | cons other names ih =>
      rw [List.mem_cons, not_or] at first
      rw [List.cons_append, List.idxOf?_cons, if_neg (by simpa using Ne.symm first.1), ih first.2]
      rfl

theorem fill?_append (before rest : List (Option (Node α))) (node : Node α) :
    Record.fill? (before ++ none :: rest) before.length node =
      some (before ++ some node :: rest) := by
  simp [Record.fill?]

/-- The entries of a record by their names, as entries of a map. -/
def keyed (entries : List (String × Node α)) : List (Node α × Node α) :=
  entries.map fun (name, node) => (.text name, node)

/-- With the first slots dealt with, the entries fill the others in order. -/
theorem fillAll? (dialect : Dialect) {names : List String} (distinct : names.Nodup)
    (within : ∀ name ∈ names, name ∈ known) (written : Written known fields entries)
    (done : List String) (before : List (Option (Node α)))
    (split : names = done ++ fields.map FieldForm.name) (reached : before.length = done.length) :
    ∃ slots, Record.fillAll? dialect names (keyed entries)
        (before ++ fields.map fun _ => none) = some (before ++ slots) ∧
      List.Forall₂ FieldForm.Fits fields slots := by
  induction written generalizing done before with
  | nil => exact ⟨[], rfl, .nil⟩
  | @kept field fields node entries allowed rest ih =>
      -- names are distinct, so no entry before has filled the slot of this one
      have first : field.name ∉ done := by
        intro member
        rw [split, List.nodup_append] at distinct
        exact distinct.2.2 _ member _ List.mem_cons_self rfl
      have place : Record.place? dialect names (.text field.name : Node α) =
          some (some before.length) := by
        rw [split, List.map_cons, Record.place?, idxOf?_append_cons first, reached]
      obtain ⟨slots, filled, fits⟩ := ih (done ++ [field.name])
        (before ++ [some node]) (by simp [split]) (by simp [reached])
      refine ⟨some node :: slots, ?_, .cons allowed fits⟩
      simp only [keyed, List.map_cons, Record.fillAll?, place, fill?_append]
      simpa [keyed] using filled
  | @omitted field fields entries usual rest ih =>
      obtain ⟨slots, filled, fits⟩ := ih (done ++ [field.name]) (before ++ [none])
        (by simp [split]) (by simp [reached])
      refine ⟨none :: slots, ?_, .cons usual fits⟩
      simpa using filled
  | @added fields entries name node unknown rest ih =>
      obtain ⟨slots, filled, fits⟩ := ih done before split reached
      refine ⟨slots, ?_, fits⟩
      have nowhere : names.idxOf? name = none :=
        List.idxOf?_eq_none_iff.mpr fun member => unknown (within name member)
      simp only [keyed, List.map_cons, Record.fillAll?, Record.place?, nowhere]
      exact filled

/-- However the fields are written, every slot of the record fits. -/
theorem slots? (dialect : Dialect) (written : Written known fields entries)
    (names : List String) (same : fields.map FieldForm.name = names) (distinct : names.Nodup)
    (within : ∀ name ∈ names, name ∈ known) :
    ∃ slots, Record.slots? dialect names (.record entries) = some slots ∧
      List.Forall₂ FieldForm.Fits fields slots := by
  obtain ⟨slots, filled, fits⟩ :=
    written.fillAll? dialect distinct within [] [] same.symm rfl
  refine ⟨slots, ?_, fits⟩
  rw [List.nil_append, List.nil_append] at filled
  rw [Node.record, Record.slots?, ← same, List.map_map, same]
  exact filled

end Written

/-- The slots of a record that knows no other fields. -/
theorem IsRecord.slots? (dialect : Dialect) {fields : List (FieldForm α)} {node : Node α}
    (form : IsRecord fields node) (names : List String) (same : fields.map FieldForm.name = names)
    (distinct : names.Nodup) :
    ∃ slots, Record.slots? dialect names node = some slots ∧
      List.Forall₂ FieldForm.Fits fields slots := by
  obtain ⟨entries, rfl, written⟩ := form
  exact written.slots? dialect names same distinct fun name member => same ▸ member

namespace Written

variable {known : List String} {fields : List (FieldForm α)} {entries : List (String × Node α)}

/-! ## Tags -/

/-- Splitting entries by a name is choosing by it. -/
theorem splitEntries_keyed (name : String) (entries : List (String × Node α)) :
    Record.splitEntries name (keyed entries) =
      (keyed (entries.filter fun entry => entry.1 ≠ name),
        (entries.filter fun entry => entry.1 = name).map Prod.snd) := by
  induction entries with
  | nil => rfl
  | cons entry rest ih =>
      rcases entry with ⟨other, node⟩
      have split : Record.splitEntries name (keyed ((other, node) :: rest)) =
          if some other = some name then
            ((Record.splitEntries name (keyed rest)).1,
              node :: (Record.splitEntries name (keyed rest)).2)
          else
            ((.text other, node) :: (Record.splitEntries name (keyed rest)).1,
              (Record.splitEntries name (keyed rest)).2) := rfl
      rw [split, ih]
      by_cases same : other = name
      · simp [same, keyed]
      · simp [same, keyed]

/-- The tag of a record is read apart from its other fields. -/
theorem tagged? (dialect : Dialect) {tag variant : String} {variants : List String}
    {index : Nat} (listed : variants.idxOf? variant = some index)
    (written : Written known (.must tag (· = .text variant) :: fields) entries)
    (within : tag ∈ known) (apart : tag ∉ fields.map FieldForm.name) :
    ∃ others, Record.tagged? dialect tag variants (.record entries) =
        some (index, .record others) ∧ Written known fields others := by
  have different : ∀ field ∈ fields, field.name ≠ tag :=
    fun field member same => apart (List.mem_map.mpr ⟨field, member, same⟩)
  have others := written.filter (· ≠ tag)
  rw [List.filter_cons_of_neg (by simp [FieldForm.must]), List.filter_eq_self.mpr
    fun field member => decide_eq_true (different field member)] at others
  have alone : (FieldForm.must tag (· = .text variant) :: fields).filter (·.name = tag) =
      [.must tag (· = .text variant)] := by
    rw [List.filter_cons_of_pos (by simp [FieldForm.must]), List.filter_eq_nil_iff.mpr
      fun field member => by simpa using different field member]
  rcases written.named alone within with ⟨_, omissible⟩ | ⟨_, single, rfl⟩
  · exact omissible.elim
  refine ⟨_, ?_, others⟩
  change Record.tagged? dialect tag variants (.map (keyed entries)) = _
  rw [Record.tagged?, splitEntries_keyed, single]
  simp only [List.map_cons, List.map_nil, Record.variantIndex?, listed]
  rfl

end Written

end Handover.Document
