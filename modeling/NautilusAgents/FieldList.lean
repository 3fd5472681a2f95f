import NautilusAgents.Collecting
import NautilusAgents.ContractAgreement
import NautilusAgents.Runner

/-!
# The field list

The tool reads the schemas it has just written and lists the fields they
declare, each with what is said of it beyond the schema: who owns it, how long
it is kept, and whether the digest covers it. A field is identified by its root
type, by the title or the name of the definition it is declared in, and by its
own name.

The list is collected by a walk over the whole schema document, through every
keyword, which passes on the name of the innermost container. What it collects
is said without the walk (`ContractSchema.Declared`): a schema declares its
properties, and so does whatever lies below it.

The file is compared byte by byte, so two things make it a faithful record. It
does not depend on the order in which a schema lists its members
(`ContractSchema.declared_layout_iff`); and its text determines the set of
fields, since every block of it can be told from what follows
(`ContractSchema.prefixFree_fieldText`).
-/

namespace ContractSchema

/-! ## Fields -/

/-- **A field of the contract.** -/
structure Field where
  /-- The root type whose schema declares it. -/
  rootType : String
  /-- The definition it belongs to. -/
  container : String
  /-- Its name. -/
  name : String
  /-- Whether a document must have it. -/
  required : Bool
  deriving DecidableEq

/-- A field as the tuple its comparison is derived from. -/
def Field.key (field : Field) : String ×ₗ String ×ₗ String ×ₗ Bool :=
  toLex (field.rootType, toLex (field.container, toLex (field.name, field.required)))

theorem Field.key_injective : Function.Injective Field.key := by
  rintro ⟨root, container, name, required⟩ ⟨root', container', name', required'⟩ h
  simp only [Field.key, EmbeddingLike.apply_eq_iff_eq, Prod.mk.injEq] at h
  obtain ⟨rfl, rfl, rfl, rfl⟩ := h
  rfl

/-- Fields are compared by root type, container, name and whether they are
required, in this order. -/
instance : LinearOrder Field := LinearOrder.lift' Field.key Field.key_injective

/-! ## Collecting -/

/-- `Value::as_str`. -/
def asStr : Json → Option String
  | .str s => some s
  | _ => none

/-- `Value::as_array`. -/
def asArray : Json → Option (List Json)
  | .arr values => some values
  | _ => none

/-- The title of a schema object, or the container it lies in. -/
def containerOf (container : String) (object : List (String × Json)) : String :=
  ((object.lookup "title").bind asStr).getD container

/-- The names a schema object requires. -/
def requiredNames (object : List (String × Json)) : List String :=
  (((object.lookup "required").bind asArray).getD []).filterMap asStr

section Walk

variable (rootType : String)

mutual

/-- **Collect the fields a schema document declares**, into those collected so
far. -/
def collectFields : String → Json → OrderedSet Field → OrderedSet Field
  | container, .obj object, fields =>
    collectKeywords (containerOf container object) object
      (collectDefinitions object
        (collectProperties (containerOf container object) (requiredNames object) object fields))
  | container, .arr values, fields => collectItems container values fields
  | _, _, fields => fields

/-- The member `properties` of a schema object, where it is an object. -/
def collectProperties : String → List String → List (String × Json) → OrderedSet Field →
    OrderedSet Field
  | _, _, [], fields => fields
  | container, required, (key, .obj properties) :: rest, fields =>
    if key = "properties" then collectEachProperty container required properties fields
    else collectProperties container required rest fields
  | container, required, (key, _) :: rest, fields =>
    if key = "properties" then fields else collectProperties container required rest fields

/-- The loop over the properties. -/
def collectEachProperty : String → List String → List (String × Json) → OrderedSet Field →
    OrderedSet Field
  | _, _, [], fields => fields
  | container, required, (name, schema) :: rest, fields =>
    collectEachProperty container required rest
      (collectFields container schema
        (fields.insert ⟨rootType, container, name, required.contains name⟩))

/-- The member `$defs` of a schema object, where it is an object. -/
def collectDefinitions : List (String × Json) → OrderedSet Field → OrderedSet Field
  | [], fields => fields
  | (key, .obj definitions) :: rest, fields =>
    if key = "$defs" then collectEachDefinition definitions fields
    else collectDefinitions rest fields
  | (key, _) :: rest, fields => if key = "$defs" then fields else collectDefinitions rest fields

/-- The loop over the definitions, each a container of its own. -/
def collectEachDefinition : List (String × Json) → OrderedSet Field → OrderedSet Field
  | [], fields => fields
  | (name, schema) :: rest, fields =>
    collectEachDefinition rest (collectFields name schema fields)

/-- The loop over the other members of a schema object. -/
def collectKeywords : String → List (String × Json) → OrderedSet Field → OrderedSet Field
  | _, [], fields => fields
  | container, (key, nested) :: rest, fields =>
    if key ≠ "$defs" ∧ key ≠ "properties" ∧ key ≠ "required" then
      collectKeywords container rest (collectFields container nested fields)
    else collectKeywords container rest fields

/-- The loop over the items of an array. -/
def collectItems : String → List Json → OrderedSet Field → OrderedSet Field
  | _, [], fields => fields
  | container, nested :: rest, fields =>
    collectItems container rest (collectFields container nested fields)

end

end Walk

/-! ## What a schema declares -/

/-- The members of the object that is a member of an object: none where there
is no such object. -/
def objectAt (key : String) (object : List (String × Json)) : List (String × Json) :=
  ((object.lookup key).map Json.members).getD []

/-- A place in a schema document: the container it lies in, and what is
there. -/
abbrev Place := String × Json

/-- **Directly below a place**: the properties and the definitions of a schema
object and what its other keywords hold, or the items of an array. -/
inductive Below : Place → Place → Prop where
  | property {container : String} {object : List (String × Json)} {m : String × Json}
      (hm : m ∈ objectAt "properties" object) :
      Below (container, .obj object) (containerOf container object, m.snd)
  | definition {container : String} {object : List (String × Json)} {m : String × Json}
      (hm : m ∈ objectAt "$defs" object) : Below (container, .obj object) m
  | keyword {container : String} {object : List (String × Json)} {m : String × Json}
      (hm : m ∈ object) (hkey : m.fst ≠ "$defs" ∧ m.fst ≠ "properties" ∧ m.fst ≠ "required") :
      Below (container, .obj object) (containerOf container object, m.snd)
  | item {container : String} {values : List Json} {nested : Json} (hnested : nested ∈ values) :
      Below (container, .arr values) (container, nested)

/-- **The fields declared at a place**: the properties of the schema object
there. -/
inductive Declares (rootType : String) : Place → Field → Prop where
  | property {container : String} {object : List (String × Json)} {m : String × Json}
      (hm : m ∈ objectAt "properties" object) :
      Declares rootType (container, .obj object)
        ⟨rootType, containerOf container object, m.fst, (requiredNames object).contains m.fst⟩

/-- **The fields a schema document declares.** -/
def Declared (rootType : String) (place : Place) (field : Field) : Prop :=
  ShownBelow Below (Declares rootType) place field

theorem below_obj_iff {container : String} {object : List (String × Json)} {place : Place} :
    Below (container, .obj object) place ↔
      (∃ m ∈ objectAt "properties" object, place = (containerOf container object, m.snd))
        ∨ (∃ m ∈ objectAt "$defs" object, place = m)
        ∨ ∃ m ∈ object, (m.fst ≠ "$defs" ∧ m.fst ≠ "properties" ∧ m.fst ≠ "required")
          ∧ place = (containerOf container object, m.snd) := by
  constructor
  · intro h
    cases h with
    | property hm => exact .inl ⟨_, hm, rfl⟩
    | definition hm => exact .inr (.inl ⟨_, hm, rfl⟩)
    | keyword hm hkey => exact .inr (.inr ⟨_, hm, hkey, rfl⟩)
  · rintro (⟨m, hm, rfl⟩ | ⟨m, hm, rfl⟩ | ⟨m, hm, hkey, rfl⟩)
    · exact .property hm
    · exact .definition hm
    · exact .keyword hm hkey

theorem below_arr_iff {container : String} {values : List Json} {place : Place} :
    Below (container, .arr values) place ↔ ∃ x ∈ values, place = (container, x) := by
  constructor
  · intro h
    cases h with
    | item hx => exact ⟨_, hx, rfl⟩
  · rintro ⟨x, hx, rfl⟩
    exact .item hx

/-- A document without children. -/
def Scalar (j : Json) : Prop := (∀ object, j ≠ .obj object) ∧ ∀ values, j ≠ .arr values

theorem obj_or_arr_or_scalar (j : Json) :
    (∃ object, j = .obj object) ∨ (∃ values, j = .arr values) ∨ Scalar j := by
  by_cases hobj : ∃ object, j = .obj object
  · exact .inl hobj
  · by_cases harr : ∃ values, j = .arr values
    · exact .inr (.inl harr)
    · exact .inr (.inr ⟨not_exists.mp hobj, not_exists.mp harr⟩)

/-- Nothing is below a scalar. -/
theorem Scalar.not_below {j : Json} (hj : Scalar j) {container : String} {place : Place} :
    ¬ Below (container, j) place := by
  intro h
  cases h with
  | property => exact hj.1 _ rfl
  | definition => exact hj.1 _ rfl
  | keyword => exact hj.1 _ rfl
  | item => exact hj.2 _ rfl

theorem declares_obj_iff {rootType container : String} {object : List (String × Json)}
    {field : Field} :
    Declares rootType (container, .obj object) field ↔ ∃ m ∈ objectAt "properties" object,
      field = ⟨rootType, containerOf container object, m.fst,
        (requiredNames object).contains m.fst⟩ := by
  constructor
  · intro h
    cases h with
    | property hm => exact ⟨_, hm, rfl⟩
  · rintro ⟨m, hm, rfl⟩
    exact .property hm

theorem not_declares_arr {rootType container : String} {values : List Json} {field : Field} :
    ¬ Declares rootType (container, .arr values) field := by
  intro h
  cases h

theorem Scalar.not_declares {j : Json} (hj : Scalar j) {rootType container : String}
    {field : Field} : ¬ Declares rootType (container, j) field := by
  intro h
  cases h with
  | property => exact hj.1 _ rfl

/-! ## The walk collects what is declared -/

section Walk

variable {rootType : String}

/-- **A walk that looks for a member** goes through the object there, if there
is one, and otherwise adds nothing. -/
theorem walk_eq_each {α : Type} {walk each : List (String × Json) → α → α} {key : String}
    (hnil : walk [] = id) (heach : each [] = id)
    (hobject : ∀ name members rest, walk ((name, .obj members) :: rest)
      = if name = key then each members else walk rest)
    (hother : ∀ name value rest, (∀ members, value = Json.obj members → False) →
      walk ((name, value) :: rest) = if name = key then id else walk rest)
    (object : List (String × Json)) : walk object = each (objectAt key object) := by
  unfold objectAt
  induction object with
  | nil => exact hnil.trans heach.symm
  | cons m rest ih =>
    obtain ⟨name, value⟩ := m
    rw [List.lookup_cons]
    by_cases hname : name = key
    · subst hname
      rw [beq_self_eq_true]
      cases value with
      | obj members =>
        rw [hobject, if_pos rfl]
        rfl
      | _ =>
        rw [hother _ _ _ (fun _ => Json.noConfusion), if_pos rfl]
        exact heach.symm
    · rw [show (key == name) = false from beq_false_of_ne (Ne.symm hname)]
      cases value with
      | obj members => rw [hobject, if_neg hname, ih]
      | _ => rw [hother _ _ _ (fun _ => Json.noConfusion), if_neg hname, ih]

theorem collectProperties_eq (container : String) (required : List String)
    (object : List (String × Json)) :
    collectProperties rootType container required object
      = collectEachProperty rootType container required (objectAt "properties" object) := by
  refine walk_eq_each ?_ ?_ (fun name members rest => ?_) (fun name value rest hvalue => ?_) object
  · funext fields
    rw [collectProperties, id_eq]
  · funext fields
    rw [collectEachProperty, id_eq]
  · funext fields
    rw [collectProperties]
    split_ifs <;> rfl
  · funext fields
    rw [collectProperties]
    · split_ifs <;> rfl
    · exact hvalue

theorem collectDefinitions_eq (object : List (String × Json)) :
    collectDefinitions rootType object
      = collectEachDefinition rootType (objectAt "$defs" object) := by
  refine walk_eq_each ?_ ?_ (fun name members rest => ?_) (fun name value rest hvalue => ?_) object
  · funext fields
    rw [collectDefinitions, id_eq]
  · funext fields
    rw [collectEachDefinition, id_eq]
  · funext fields
    rw [collectDefinitions]
    split_ifs <;> rfl
  · funext fields
    rw [collectDefinitions]
    · split_ifs <;> rfl
    · exact hvalue

/-! The loops collect what their turns do. -/

theorem collectEachProperty_eq_foldl (container : String) (required : List String)
    (properties : List (String × Json)) (fields : OrderedSet Field) :
    collectEachProperty rootType container required properties fields
      = properties.foldl (fun fields m => collectFields rootType container m.snd
          (fields.insert ⟨rootType, container, m.fst, required.contains m.fst⟩)) fields := by
  induction properties generalizing fields with
  | nil => rw [collectEachProperty, List.foldl_nil]
  | cons m rest ih =>
    obtain ⟨name, schema⟩ := m
    rw [collectEachProperty, ih, List.foldl_cons]

theorem collects_eachProperty {container : String} (required : List String)
    {properties : List (String × Json)}
    (h : ∀ m ∈ properties,
      Collects (collectFields rootType container m.snd) (Declared rootType (container, m.snd))) :
    Collects (collectEachProperty rootType container required properties)
      (fun field => ∃ m ∈ properties,
        field = ⟨rootType, container, m.fst, required.contains m.fst⟩
          ∨ Declared rootType (container, m.snd) field) := by
  intro fields
  rw [collectEachProperty_eq_foldl]
  exact Collects.foldl (fun m hm => (Collects.insert _).seq (h m hm)) fields

theorem collectEachDefinition_eq_foldl (definitions : List (String × Json))
    (fields : OrderedSet Field) :
    collectEachDefinition rootType definitions fields
      = definitions.foldl (fun fields m => collectFields rootType m.fst m.snd fields) fields := by
  induction definitions generalizing fields with
  | nil => rw [collectEachDefinition, List.foldl_nil]
  | cons m rest ih =>
    obtain ⟨name, schema⟩ := m
    rw [collectEachDefinition, ih, List.foldl_cons]

theorem collects_eachDefinition {definitions : List (String × Json)}
    (h : ∀ m ∈ definitions, Collects (collectFields rootType m.fst m.snd) (Declared rootType m)) :
    Collects (collectEachDefinition rootType definitions)
      (fun field => ∃ m ∈ definitions, Declared rootType m field) := by
  intro fields
  rw [collectEachDefinition_eq_foldl]
  exact Collects.foldl h fields

theorem collectKeywords_eq_foldl (container : String) (object : List (String × Json))
    (fields : OrderedSet Field) :
    collectKeywords rootType container object fields
      = object.foldl (fun fields m =>
          (if m.fst ≠ "$defs" ∧ m.fst ≠ "properties" ∧ m.fst ≠ "required" then
            collectFields rootType container m.snd else id) fields) fields := by
  induction object generalizing fields with
  | nil => rw [collectKeywords, List.foldl_nil]
  | cons m rest ih =>
    obtain ⟨key, nested⟩ := m
    rw [collectKeywords, ih, ih, List.foldl_cons]
    split_ifs <;> rfl

theorem collects_keywords {container : String} {object : List (String × Json)}
    (h : ∀ m ∈ object,
      Collects (collectFields rootType container m.snd) (Declared rootType (container, m.snd))) :
    Collects (collectKeywords rootType container object)
      (fun field => ∃ m ∈ object,
        (m.fst ≠ "$defs" ∧ m.fst ≠ "properties" ∧ m.fst ≠ "required")
          ∧ Declared rootType (container, m.snd) field) := by
  intro fields
  rw [collectKeywords_eq_foldl]
  exact Collects.foldl (fun m hm => Collects.ite (h m hm)) fields

theorem collectItems_eq_foldl (container : String) (values : List Json)
    (fields : OrderedSet Field) :
    collectItems rootType container values fields
      = values.foldl (fun fields nested => collectFields rootType container nested fields)
          fields := by
  induction values generalizing fields with
  | nil => rw [collectItems, List.foldl_nil]
  | cons x rest ih => rw [collectItems, ih, List.foldl_cons]

theorem collects_items {container : String} {values : List Json}
    (h : ∀ x ∈ values, Collects (collectFields rootType container x)
      (Declared rootType (container, x))) :
    Collects (collectItems rootType container values)
      (fun field => ∃ x ∈ values, Declared rootType (container, x) field) := by
  intro fields
  rw [collectItems_eq_foldl]
  exact Collects.foldl h fields

/-! What is declared at a place, and below it. -/

theorem declared_obj_iff {container : String} {object : List (String × Json)} {field : Field} :
    Declared rootType (container, .obj object) field ↔
      ((∃ m ∈ objectAt "properties" object,
          field = ⟨rootType, containerOf container object, m.fst,
              (requiredNames object).contains m.fst⟩
            ∨ Declared rootType (containerOf container object, m.snd) field)
        ∨ ∃ m ∈ objectAt "$defs" object, Declared rootType m field)
        ∨ ∃ m ∈ object, (m.fst ≠ "$defs" ∧ m.fst ≠ "properties" ∧ m.fst ≠ "required")
          ∧ Declared rootType (containerOf container object, m.snd) field := by
  unfold Declared
  rw [shownBelow_iff, declares_obj_iff]
  constructor
  · rintro (⟨m, hm, rfl⟩ | ⟨place, hbelow, h⟩)
    · exact .inl (.inl ⟨m, hm, .inl rfl⟩)
    · rcases below_obj_iff.mp hbelow with ⟨m, hm, rfl⟩ | ⟨m, hm, rfl⟩ | ⟨m, hm, hkey, rfl⟩
      · exact .inl (.inl ⟨m, hm, .inr h⟩)
      · exact .inl (.inr ⟨_, hm, h⟩)
      · exact .inr ⟨m, hm, hkey, h⟩
  · rintro ((⟨m, hm, rfl | h⟩ | ⟨m, hm, h⟩) | ⟨m, hm, hkey, h⟩)
    · exact .inl ⟨m, hm, rfl⟩
    · exact .inr ⟨_, .property hm, h⟩
    · exact .inr ⟨_, .definition hm, h⟩
    · exact .inr ⟨_, .keyword hm hkey, h⟩

theorem declared_arr_iff {container : String} {values : List Json} {field : Field} :
    Declared rootType (container, .arr values) field ↔
      ∃ x ∈ values, Declared rootType (container, x) field := by
  unfold Declared
  rw [shownBelow_iff, or_iff_right not_declares_arr]
  constructor
  · rintro ⟨place, hbelow, h⟩
    obtain ⟨x, hx, rfl⟩ := below_arr_iff.mp hbelow
    exact ⟨x, hx, h⟩
  · rintro ⟨x, hx, h⟩
    exact ⟨_, .item hx, h⟩

/-- A scalar declares nothing. -/
theorem Scalar.not_declared {j : Json} (hj : Scalar j) {container : String} {field : Field} :
    ¬ Declared rootType (container, j) field := by
  unfold Declared
  rw [shownBelow_iff, or_iff_right hj.not_declares]
  rintro ⟨place, hbelow, -⟩
  exact hj.not_below hbelow

theorem sizeOf_lt_arr {x : Json} {values : List Json} (hx : x ∈ values) :
    sizeOf x < sizeOf (Json.arr values) := by
  have hlt := List.sizeOf_lt_of_mem hx
  simp only [Json.arr.sizeOf_spec]
  omega

theorem sizeOf_lt_obj {m : String × Json} {ms : List (String × Json)} (hm : m ∈ ms) :
    sizeOf m.snd < sizeOf (Json.obj ms) := by
  have hlt := List.sizeOf_lt_of_mem hm
  obtain ⟨name, value⟩ := m
  simp only [Prod.mk.sizeOf_spec] at hlt
  simp only [Json.obj.sizeOf_spec]
  omega

theorem sizeOf_lt_objectAt {key : String} {m : String × Json} {ms : List (String × Json)}
    (hm : m ∈ objectAt key ms) : sizeOf m.snd < sizeOf (Json.obj ms) := by
  unfold objectAt at hm
  cases hlookup : ms.lookup key with
  | none =>
    rw [hlookup] at hm
    cases hm
  | some value =>
    rw [hlookup] at hm
    have hvalue := sizeOf_lt_obj (Json.mem_of_lookup_eq_some hlookup)
    cases value with
    | obj members => exact (sizeOf_lt_obj hm).trans hvalue
    | _ => cases hm

/-- **The walk collects what the document declares.** The induction is on the
size of the document: the walk goes on with what lies in it. -/
theorem collects_collectFields (j : Json) (container : String) :
    Collects (collectFields rootType container j) (Declared rootType (container, j)) := by
  induction hsize : sizeOf j using Nat.strong_induction_on generalizing j container with
  | _ size ih =>
    subst hsize
    rcases obj_or_arr_or_scalar j with ⟨object, rfl⟩ | ⟨values, rfl⟩ | hj
    · have hproperties := collects_eachProperty (requiredNames object)
        (fun m (hm : m ∈ objectAt "properties" object) =>
          ih _ (sizeOf_lt_objectAt hm) m.snd (containerOf container object) rfl)
      have hdefinitions := collects_eachDefinition (fun m (hm : m ∈ objectAt "$defs" object) =>
        ih _ (sizeOf_lt_objectAt hm) m.snd m.fst rfl)
      have hkeywords := collects_keywords (fun m hm =>
        ih _ (sizeOf_lt_obj hm) m.snd (containerOf container object) rfl)
      rw [← collectProperties_eq] at hproperties
      rw [← collectDefinitions_eq] at hdefinitions
      have hwalk : Collects _ (Declared rootType (container, .obj object)) :=
        ((hproperties.seq hdefinitions).seq hkeywords).congr (fun _ => declared_obj_iff.symm)
      intro fields field
      rw [collectFields]
      exact hwalk fields field
    · have hitems := (collects_items (fun x hx =>
        ih _ (sizeOf_lt_arr hx) x container rfl)).congr (fun field => declared_arr_iff.symm)
      intro fields field
      rw [collectFields]
      exact hitems fields field
    · intro fields field
      rw [collectFields]
      · exact Collects.skip (fun _ => hj.not_declared) fields field
      · exact hj.1
      · exact hj.2

end Walk

/-! ## The order of members -/

section Layout

variable {f : Json → Json} {rootType : String}

theorem asStr_layout (hf : Json.Layout f) {j : Json} (hj : j.IJson) : asStr (f j) = asStr j := by
  cases hj with
  | null => rw [hf.null]
  | bool => rw [hf.bool]
  | nat => rw [hf.nat]
  | str => rw [hf.str]
  | arr =>
    rw [hf.arr]
    rfl
  | obj =>
    obtain ⟨members, heq, -⟩ := hf.obj _
    rw [heq]
    rfl

theorem asArray_layout (hf : Json.Layout f) {j : Json} (hj : j.IJson) :
    asArray (f j) = (asArray j).map (List.map f) := by
  cases hj with
  | null =>
    rw [hf.null]
    rfl
  | bool =>
    rw [hf.bool]
    rfl
  | nat =>
    rw [hf.nat]
    rfl
  | str =>
    rw [hf.str]
    rfl
  | arr =>
    rw [hf.arr]
    rfl
  | obj =>
    obtain ⟨members, heq, -⟩ := hf.obj _
    rw [heq]
    rfl

/-- The members of a laid out document are its members, each laid out. -/
theorem members_layout (hf : Json.Layout f) {j : Json} (hj : j.IJson) :
    (f j).members.Perm (j.members.map (fun m => (m.fst, f m.snd))) := by
  cases hj with
  | null => rw [hf.null]; exact List.Perm.nil
  | bool => rw [hf.bool]; exact List.Perm.nil
  | nat => rw [hf.nat]; exact List.Perm.nil
  | str => rw [hf.str]; exact List.Perm.nil
  | arr => rw [hf.arr]; exact List.Perm.nil
  | obj =>
    obtain ⟨members, heq, hperm⟩ := hf.obj _
    rw [heq]
    exact hperm

variable {object object' : List (String × Json)}

/-- **An object and one laid out from it**: distinct names, and each member laid
out. -/
structure LaidOut (f : Json → Json) (object object' : List (String × Json)) : Prop where
  /-- The members are laid out. -/
  layout : Json.Layout f
  /-- No name stands twice in the object. -/
  names : (object.map Prod.fst).Nodup
  /-- Its members are documents the crates take. -/
  iJson : ∀ m ∈ object, m.snd.IJson
  /-- The other object lists the laid out members in some order. -/
  perm : object'.Perm (object.map (fun m => (m.fst, f m.snd)))

theorem LaidOut.lookup (h : LaidOut f object object') (name : String) :
    object'.lookup name = (object.lookup name).map f := by
  rw [Json.lookup_perm h.perm, Json.lookup_map_snd]
  rw [List.map_map]
  exact h.names

theorem LaidOut.containerOf (h : LaidOut f object object') (container : String) :
    ContractSchema.containerOf container object' = ContractSchema.containerOf container object := by
  unfold ContractSchema.containerOf
  rw [h.lookup]
  cases hlookup : object.lookup "title" with
  | none => rfl
  | some title =>
    rw [Option.map_some, Option.bind_some, Option.bind_some,
      asStr_layout h.layout (h.iJson _ (Json.mem_of_lookup_eq_some hlookup))]

theorem LaidOut.requiredNames (h : LaidOut f object object') :
    ContractSchema.requiredNames object' = ContractSchema.requiredNames object := by
  unfold ContractSchema.requiredNames
  rw [h.lookup]
  cases hlookup : object.lookup "required" with
  | none => rfl
  | some required =>
    have hrequired := h.iJson _ (Json.mem_of_lookup_eq_some hlookup)
    rw [Option.map_some, Option.bind_some, Option.bind_some, asArray_layout h.layout hrequired]
    cases required with
    | arr values =>
      rw [Json.iJson_arr] at hrequired
      show (values.map f).filterMap asStr = values.filterMap asStr
      rw [List.filterMap_map]
      exact List.filterMap_congr (fun x hx => asStr_layout h.layout (hrequired x hx))
    | _ => rfl

theorem LaidOut.objectAt (h : LaidOut f object object') (key : String) :
    (ContractSchema.objectAt key object').Perm
      ((ContractSchema.objectAt key object).map (fun m => (m.fst, f m.snd))) := by
  unfold ContractSchema.objectAt
  rw [h.lookup]
  cases hlookup : object.lookup key with
  | none => exact List.Perm.nil
  | some value => exact members_layout h.layout (h.iJson _ (Json.mem_of_lookup_eq_some hlookup))

theorem laidOut_obj (hf : Json.Layout f) (hobject : (Json.obj object).IJson) :
    ∃ object', f (.obj object) = .obj object' ∧ LaidOut f object object' := by
  obtain ⟨object', heq, hperm⟩ := hf.obj object
  rw [Json.iJson_obj] at hobject
  exact ⟨object', heq, hf, hobject.1, hobject.2, hperm⟩

theorem iJson_objectAt {key : String} (hobject : ∀ m ∈ object, m.snd.IJson) {m : String × Json}
    (hm : m ∈ objectAt key object) : m.snd.IJson := by
  unfold objectAt at hm
  cases hlookup : object.lookup key with
  | none =>
    rw [hlookup] at hm
    cases hm
  | some value =>
    rw [hlookup] at hm
    have hvalue := hobject _ (Json.mem_of_lookup_eq_some hlookup)
    cases value with
    | obj members => exact (Json.iJson_obj.mp hvalue).2 m hm
    | _ => cases hm

theorem Below.iJson {place place' : Place} (hplace : place.snd.IJson) (h : Below place place') :
    place'.snd.IJson := by
  cases h with
  | @property container object m hm =>
    exact iJson_objectAt (m := m) (Json.iJson_obj.mp hplace).2 hm
  | definition hm => exact iJson_objectAt (Json.iJson_obj.mp hplace).2 hm
  | @keyword container object m hm hkey => exact (Json.iJson_obj.mp hplace).2 m hm
  | @item container values x hx => exact Json.iJson_arr.mp hplace x hx

/-- A place, laid out. -/
def Place.layout (f : Json → Json) (place : Place) : Place := (place.fst, f place.snd)

/-- A member of a list laid out is the image of one. -/
theorem exists_mem_perm_map {α β : Type} {l : List α} {l' : List β} {g : α → β} {P : β → Prop}
    (h : l'.Perm (l.map g)) : (∃ b ∈ l', P b) ↔ ∃ a ∈ l, P (g a) := by
  simp only [h.mem_iff, List.mem_map, exists_exists_and_eq_and]

/-- A scalar is laid out as it is. -/
theorem Scalar.layout (hf : Json.Layout f) {j : Json} (hscalar : Scalar j) (hj : j.IJson) :
    f j = j := by
  cases hj with
  | null => exact hf.null
  | bool => exact hf.bool _
  | nat => exact hf.nat _
  | str => exact hf.str _
  | arr => exact absurd rfl (hscalar.2 _)
  | obj => exact absurd rfl (hscalar.1 _)

/-- **Directly below a place laid out** are the places below it, laid out. -/
theorem below_layout_iff (hf : Json.Layout f) {place : Place} (hplace : place.snd.IJson)
    (place' : Place) :
    Below (place.layout f) place' ↔ ∃ q, Below place q ∧ place' = q.layout f := by
  obtain ⟨container, j⟩ := place
  show Below (container, f j) place' ↔ _
  rcases obj_or_arr_or_scalar j with ⟨object, rfl⟩ | ⟨values, rfl⟩ | hscalar
  · obtain ⟨object', heq, hlaid⟩ := laidOut_obj hf hplace
    simp only [heq, below_obj_iff, hlaid.containerOf, exists_mem_perm_map (hlaid.objectAt _),
      exists_mem_perm_map hlaid.perm]
    constructor
    · rintro (⟨m, hm, rfl⟩ | ⟨m, hm, rfl⟩ | ⟨m, hm, hkey, rfl⟩)
      · exact ⟨_, .inl ⟨m, hm, rfl⟩, rfl⟩
      · exact ⟨_, .inr (.inl ⟨m, hm, rfl⟩), rfl⟩
      · exact ⟨_, .inr (.inr ⟨m, hm, hkey, rfl⟩), rfl⟩
    · rintro ⟨q, ⟨m, hm, rfl⟩ | ⟨m, hm, rfl⟩ | ⟨m, hm, hkey, rfl⟩, rfl⟩
      · exact .inl ⟨m, hm, rfl⟩
      · exact .inr (.inl ⟨_, hm, rfl⟩)
      · exact .inr (.inr ⟨m, hm, hkey, rfl⟩)
  · simp only [hf.arr, below_arr_iff, List.mem_map, exists_exists_and_eq_and]
    constructor
    · rintro ⟨x, hx, rfl⟩
      exact ⟨_, ⟨x, hx, rfl⟩, rfl⟩
    · rintro ⟨q, ⟨x, hx, rfl⟩, rfl⟩
      exact ⟨x, hx, rfl⟩
  · rw [hscalar.layout hf hplace]
    constructor
    · intro h
      exact absurd h hscalar.not_below
    · rintro ⟨q, h, -⟩
      exact absurd h hscalar.not_below

/-- **A layout declares the same fields** at each place. -/
theorem declares_layout_iff (hf : Json.Layout f) {place : Place} (hplace : place.snd.IJson)
    (field : Field) : Declares rootType (place.layout f) field ↔ Declares rootType place field := by
  obtain ⟨container, j⟩ := place
  show Declares rootType (container, f j) field ↔ _
  rcases obj_or_arr_or_scalar j with ⟨object, rfl⟩ | ⟨values, rfl⟩ | hscalar
  · obtain ⟨object', heq, hlaid⟩ := laidOut_obj hf hplace
    rw [heq, declares_obj_iff, declares_obj_iff, hlaid.containerOf, hlaid.requiredNames,
      exists_mem_perm_map (hlaid.objectAt _)]
  · rw [hf.arr]
    exact iff_of_false not_declares_arr not_declares_arr
  · rw [hscalar.layout hf hplace]

/-- **The order of members does not matter**: a schema document declares the
fields it declares in any layout. -/
theorem declared_layout_iff (hf : Json.Layout f) {container : String} {j : Json} (hj : j.IJson)
    (field : Field) :
    Declared rootType (container, f j) field ↔ Declared rootType (container, j) field :=
  shownBelow_map_iff (Place.layout f) (fun place => place.snd.IJson)
    (fun _ _ => Below.iJson) (fun _ hplace => below_layout_iff hf hplace)
    (fun _ hplace => declares_layout_iff hf hplace) (s := (container, j)) hj field

end Layout

/-! ## The text -/

/-- Who owns a field. -/
def fieldOwner (field : Field) : String :=
  match field.rootType with
  | "Observation" | "DecisionReceipt" | "ProposalResponse" => "nautilus_trader"
  | "LiveProposalRequest" => "caller"
  | "AgentTrace" => "agent"
  | _ => "shared"

/-- How long a field is kept. -/
def fieldRetention (field : Field) : String :=
  match field.rootType with
  | "Observation" => "declared_by_observation"
  | "AgentTrace" => "agent_trace"
  | _ => "reference_only"

/-- Whether a digest covers a field. -/
def fieldDigestCovered (field : Field) : Bool :=
  match field.rootType with
  | "Observation" => !(field.container == "Observation" && field.name == "digest")
  | "LiveProposalRequest" | "AgentTrace" => true
  | _ => false

/-- A line of the list. -/
def line (name : String) (value : List Char) : List Char :=
  (name ++ " = ").toList ++ (value ++ ['\n'])

/-- A truth value. -/
def boolText (b : Bool) : List Char := if b then "true".toList else "false".toList

/-- A line with a value can be told from what follows it as the value can. -/
theorem line_inj {α : Type} {code : α → List Char} (h : PrefixFree code) {name : String} {a b : α}
    {xs ys : List Char} (heq : line name (code a) ++ xs = line name (code b) ++ ys) :
    a = b ∧ xs = ys :=
  (h.append_const ['\n']).const_append (name ++ " = ").toList heq

theorem prefixFree_boolText : PrefixFree boolText := by
  intro a b xs ys heq
  cases a <;> cases b
  · exact ⟨rfl, List.append_cancel_left heq⟩
  · exact absurd (List.cons_eq_cons.mp heq).1 (by decide)
  · exact absurd (List.cons_eq_cons.mp heq).1 (by decide)
  · exact ⟨rfl, List.append_cancel_left heq⟩

/-- The first lines of the list. -/
def fieldsHeader : List Char :=
  "# Generated by agent-contract-schema. Change Rust DTOs or generator metadata rules.\n\n".toList

/-- The first lines end with a blank one. -/
theorem fieldsHeader_eq : fieldsHeader = fieldsHeader.dropLast ++ ['\n'] := by decide

section Text

variable [UnicodeTables]

/-- The lines of a field. -/
def fieldLines (field : Field) : List Char :=
  "[[field]]\n".toList
    ++ (line "root_type" (DebugText.quote field.rootType)
    ++ (line "container" (DebugText.quote field.container)
    ++ (line "name" (DebugText.quote field.name)
    ++ (line "owner" (DebugText.quote (fieldOwner field))
    ++ (line "stability" "\"protocol_1_0\"".toList
    ++ (line "required" (boolText field.required)
    ++ (line "retention" (DebugText.quote (fieldRetention field))
    ++ line "digest_covered" (boolText (fieldDigestCovered field)))))))))

/-- **The block of a field**, and a blank line. -/
def fieldText (field : Field) : List Char := fieldLines field ++ ['\n']

/-- **The text of the list**, without the blank line behind the last block. -/
def fieldsText (fields : OrderedSet Field) : List Char :=
  (fieldsHeader ++ fields.elems.flatMap fieldText).dropLast

/-- **The bytes of the list**, from the schemas as they were written. -/
def fieldsBytes [Crates] (schemas : List Asset) : Except ToolError (List UInt8) := do
  let fields ← schemas.foldlM (fun fields schema => do
    let value ← (Crates.fromSlice schema.bytes).mapError ToolError.serialization
    return collectFields schema.rootType schema.rootType value fields) OrderedSet.empty
  return Json.utf8 (fieldsText fields)

/-- The lines of a field can be told from what follows them. What they say beyond
the field is a function of the field. -/
theorem prefixFree_fieldLines : PrefixFree fieldLines := by
  rintro ⟨root, container, name, required⟩ ⟨root', container', name', required'⟩ xs ys heq
  unfold fieldLines at heq
  simp only [List.append_assoc, List.append_cancel_left_eq] at heq
  obtain ⟨rfl, hcontainer⟩ := line_inj DebugText.prefixFree_quote heq
  obtain ⟨rfl, hname⟩ := line_inj DebugText.prefixFree_quote hcontainer
  obtain ⟨rfl, howner⟩ := line_inj DebugText.prefixFree_quote hname
  -- the owner and the stability are the same by now
  have hrequired := List.append_cancel_left (List.append_cancel_left howner)
  obtain ⟨rfl, hretention⟩ := line_inj prefixFree_boolText hrequired
  exact ⟨rfl, List.append_cancel_left (List.append_cancel_left hretention)⟩

/-- **A block can be told from what follows it.** -/
theorem prefixFree_fieldText : PrefixFree fieldText := prefixFree_fieldLines.append_const ['\n']

/-- The text lost a line feed and nothing else. -/
theorem fieldsText_append (fields : OrderedSet Field) :
    fieldsText fields ++ ['\n'] = fieldsHeader ++ fields.elems.flatMap fieldText := by
  have hends : ∃ before, fieldsHeader ++ fields.elems.flatMap fieldText = before ++ ['\n'] := by
    cases hfields : fields.elems using List.reverseRecOn with
    | nil => exact ⟨_, (List.append_nil _).trans fieldsHeader_eq⟩
    | append_singleton init field =>
      rw [List.flatMap_append, List.flatMap_singleton, fieldText, ← List.append_assoc,
        ← List.append_assoc]
      exact ⟨_, rfl⟩
  obtain ⟨before, hbefore⟩ := hends
  rw [fieldsText, hbefore, List.dropLast_concat]

/-- **The text determines the fields.** -/
theorem fieldsText_injective : Function.Injective fieldsText := by
  intro fields fields' h
  have heq := congrArg (· ++ ['\n']) h
  simp only [fieldsText_append] at heq
  exact OrderedSet.ext (prefixFree_fieldText.flatMap_injective
    (fun field => List.append_ne_nil_of_right_ne_nil _ (List.cons_ne_nil _ _))
    (List.append_cancel_left heq))

end Text

/-! ## From the schemas to the list -/

/-- A document is written as it is. -/
instance : Serialize Json where
  serialize j := j

/-- `Map::insert`, into members kept in the order of their names. -/
def insertMember (name : String) (value : Json) (object : List (String × Json)) :
    List (String × Json) :=
  (object.filter (fun m => m.fst ≠ name)).orderedInsert (fun m n => m.fst ≤ n.fst) (name, value)

/-- The identifier of a published schema. -/
def schemaId (file : String) : Json :=
  .str ("https://schemas.nautilustrader.io/agents/v1/" ++ file)

section Schemas

variable [Crates] [PrettyCrate]

/-- **The file of a schema**, given the document derived for the type. -/
def schemaAsset (file rootType : String) (schema : Json) : Except ToolError Asset :=
  match schema with
  | .obj object =>
    (prettyJson (Json.obj (insertMember "$id" (schemaId file) object))).map
      (fun bytes => ⟨"schema/" ++ file, rootType, bytes⟩)
  | _ => .error (.serialization ("schema for " ++ rootType ++ " is not an object"))

/-- **The files of the schemas**, given the documents derived for the types. -/
def derivedAssets (schema : String → Json) : Except ToolError (List Asset) :=
  schemaFiles.mapM (fun p => schemaAsset p.fst p.snd (schema p.fst))

end Schemas

/-- **A derived schema**: an object with no identifier of its own, which the
reader can take. -/
structure Derived (schema : Json) : Prop where
  /-- It is an object. -/
  isObject : ∃ object, schema = .obj object
  /-- It has no identifier of its own. -/
  noId : "$id" ∉ schema.members.map Prod.fst
  /-- The crates take it. -/
  iJson : schema.IJson
  /-- It is not too deep for the reader. -/
  depth : schema.DepthLE Crates.maxDepth

/-- The fields that some of the schemas declare. -/
def DeclaredBy (schema : String → Json) (field : Field) : Prop :=
  ∃ p ∈ schemaFiles, Declared p.snd (p.snd, schema p.fst) field

section Insert

variable {name : String} {value : Json} {object : List (String × Json)}

theorem insertMember_perm (value : Json) (h : name ∉ object.map Prod.fst) :
    (insertMember name value object).Perm ((name, value) :: object) := by
  have hfilter : object.filter (fun m => m.fst ≠ name) = object := by
    refine List.filter_eq_self.mpr (fun m hm => ?_)
    rw [decide_eq_true_eq]
    rintro rfl
    exact h (List.mem_map_of_mem hm)
  unfold insertMember
  rw [hfilter]
  exact List.perm_orderedInsert _ _ _

/-- An object with another member, whose name is new, is as good a document. -/
theorem iJson_insertMember (h : name ∉ object.map Prod.fst) (hobject : (Json.obj object).IJson)
    (hvalue : value.IJson) : (Json.obj (insertMember name value object)).IJson := by
  have hperm := insertMember_perm value h
  rw [Json.iJson_obj] at hobject ⊢
  refine ⟨(hperm.map Prod.fst).nodup_iff.mpr (List.nodup_cons.mpr ⟨h, hobject.1⟩), ?_⟩
  intro m hm
  rcases List.mem_cons.mp (hperm.mem_iff.mp hm) with rfl | hm
  · exact hvalue
  · exact hobject.2 m hm

/-- A text beside the other members of an object lies no deeper than they do,
where an object may lie at all. -/
theorem depthLE_insertMember {n : ℕ} (h : name ∉ object.map Prod.fst)
    (hobject : (Json.obj object).DepthLE (n + 1)) (s : String) :
    (Json.obj (insertMember name (.str s) object)).DepthLE (n + 1) := by
  refine Json.depthLE_obj (fun m hm => ?_)
  rcases List.mem_cons.mp ((insertMember_perm _ h).mem_iff.mp hm) with rfl | hm
  · exact Json.depthLE_str n s
  · intro path d hd
    obtain ⟨i, hi⟩ := List.mem_iff_getElem?.mp hm
    refine Nat.succ_le_succ_iff.mp (hobject (i :: path) d ?_)
    rw [Json.place_cons, Json.child, hi]
    exact hd

theorem lookup_insertMember (value : Json) (h : name ∉ object.map Prod.fst)
    (hnd : (object.map Prod.fst).Nodup) {key : String} (hkey : key ≠ name) :
    (insertMember name value object).lookup key = object.lookup key := by
  rw [Json.lookup_perm (insertMember_perm value h) (List.nodup_cons.mpr ⟨h, hnd⟩), List.lookup_cons,
    beq_false_of_ne hkey]

/-- **A text among the members of a schema object declares nothing**, unless it
is its title. -/
theorem declared_insertMember_iff {rootType container : String} {s : String} {field : Field}
    (h : name ∉ object.map Prod.fst) (hnd : (object.map Prod.fst).Nodup)
    (hname : name ∉ ["title", "required", "properties", "$defs"]) :
    Declared rootType (container, .obj (insertMember name (.str s) object)) field
      ↔ Declared rootType (container, .obj object) field := by
  have hne : ∀ key ∈ ["title", "required", "properties", "$defs"], key ≠ name :=
    fun key hkey heq => hname (heq ▸ hkey)
  have hlookup := fun key hkey => lookup_insertMember (.str s) h hnd (hne key hkey)
  have htitle : containerOf container (insertMember name (.str s) object)
      = containerOf container object := by
    unfold containerOf
    rw [hlookup "title" (by decide)]
  have hrequired : requiredNames (insertMember name (.str s) object) = requiredNames object := by
    unfold requiredNames
    rw [hlookup "required" (by decide)]
  have hproperties : objectAt "properties" (insertMember name (.str s) object)
      = objectAt "properties" object := by
    unfold objectAt
    rw [hlookup "properties" (by decide)]
  have hdefinitions : objectAt "$defs" (insertMember name (.str s) object)
      = objectAt "$defs" object := by
    unfold objectAt
    rw [hlookup "$defs" (by decide)]
  have hscalar : Scalar (.str s) := ⟨fun _ => Json.noConfusion, fun _ => Json.noConfusion⟩
  rw [declared_obj_iff, declared_obj_iff, htitle, hrequired, hproperties, hdefinitions]
  refine or_congr Iff.rfl ?_
  simp only [(insertMember_perm (.str s) h).mem_iff, List.exists_mem_cons_iff]
  exact or_iff_right (fun hor => hscalar.not_declared hor.2)

end Insert

/-- A document without rounded numbers has natural numbers only. -/
theorem natural_of_iJson {j : Json} (h : j.IJson) : j.Natural := by
  induction h with
  | null => exact .null
  | bool b => exact .bool b
  | nat => exact .nat _
  | str s => exact .str s
  | arr h ih => exact .arr ih
  | obj hnd h ih => exact .obj ih

/-- **The published document of a derived schema**, with its identifier. -/
def published (file : String) (schema : Json) : Json :=
  .obj (insertMember "$id" (schemaId file) schema.members)

theorem iJson_published {file : String} [Crates] {schema : Json} (h : Derived schema) :
    (published file schema).IJson := by
  obtain ⟨object, rfl⟩ := h.isObject
  exact iJson_insertMember h.noId h.iJson (.str _)

/-- **The published document declares what the derived one does.** -/
theorem declared_published_iff [Crates] {file rootType : String} {schema : Json}
    (h : Derived schema) (field : Field) :
    Declared rootType (rootType, published file schema) field
      ↔ Declared rootType (rootType, schema) field := by
  obtain ⟨object, rfl⟩ := h.isObject
  exact declared_insertMember_iff h.noId (Json.iJson_obj.mp h.iJson).1 (by decide)

theorem schemaAsset_eq_ok [PrettyCrate] [Crates] (hwrite : PrettyCrate.PrettyWriter)
    {file rootType : String} {schema : Json} (h : Derived schema) :
    schemaAsset file rootType schema
      = .ok ⟨"schema/" ++ file, rootType, (published file schema).prettyBytes ++ [0x0a]⟩ := by
  have hpretty : prettyJson (published file schema)
      = .ok ((published file schema).prettyBytes ++ [0x0a]) :=
    prettyJson_eq_ok hwrite (natural_of_iJson (iJson_published h))
  obtain ⟨object, rfl⟩ := h.isObject
  show (prettyJson (published file (.obj object))).map _ = _
  rw [hpretty]
  rfl

/-- The file of a schema is read back. -/
theorem fromSlice_published [Crates] (hread : Crates.Reader) {file : String} {schema : Json}
    (h : Derived schema) :
    Crates.fromSlice ((published file schema).prettyBytes ++ [0x0a])
      = .ok (published file schema) := by
  have hjson : (published file schema).IJson := iJson_published h
  refine hread _ _ (Json.parse_prettyBytes (natural_of_iJson hjson)) hjson ?_
  obtain ⟨object, rfl⟩ := h.isObject
  exact depthLE_insertMember h.noId h.depth _

/-- **The list is that of the fields the schemas declare**, as they are read
back. The induction is on the schemas left, over what is collected so far. -/
theorem exists_fieldsBytes [Crates] [UnicodeTables] {schemas : List Asset}
    (h : ∀ schema ∈ schemas, ∃ value, Crates.fromSlice schema.bytes = .ok value) :
    ∃ listed, fieldsBytes schemas = .ok (Json.utf8 (fieldsText listed))
      ∧ ∀ field, field ∈ listed.elems ↔ ∃ schema ∈ schemas, ∃ value,
        Crates.fromSlice schema.bytes = .ok value
          ∧ Declared schema.rootType (schema.rootType, value) field := by
  have hfold : ∀ fields : OrderedSet Field, ∃ listed, schemas.foldlM (fun fields schema => do
      let value ← (Crates.fromSlice schema.bytes).mapError ToolError.serialization
      return collectFields schema.rootType schema.rootType value fields) fields = .ok listed
      ∧ ∀ field, field ∈ listed.elems ↔ field ∈ fields.elems ∨ ∃ schema ∈ schemas, ∃ value,
        Crates.fromSlice schema.bytes = .ok value
          ∧ Declared schema.rootType (schema.rootType, value) field := by
    induction schemas with
    | nil => exact fun fields => ⟨fields, rfl, fun field => by simp⟩
    | cons schema schemas ih =>
      rw [List.forall_mem_cons] at h
      obtain ⟨⟨value, hvalue⟩, hrest⟩ := h
      intro fields
      obtain ⟨listed, hlisted, hmem⟩ := ih hrest
        (collectFields schema.rootType schema.rootType value fields)
      refine ⟨listed, ?_, fun field => ?_⟩
      · rw [List.foldlM_cons, hvalue]
        exact hlisted
      · rw [hmem field, collects_collectFields value schema.rootType fields field, or_assoc,
          List.exists_mem_cons_iff, hvalue]
        simp only [Except.ok.injEq, exists_eq_left']
  obtain ⟨listed, hlisted, hmem⟩ := hfold OrderedSet.empty
  refine ⟨listed, ?_, fun field => ?_⟩
  · unfold fieldsBytes
    rw [hlisted]
    rfl
  · rw [hmem field]
    exact or_iff_right (OrderedSet.mem_elems_empty field)

/-- The derived schemas are written under the names of their files. -/
theorem derivedAssets_eq_ok [Crates] [PrettyCrate] (hwrite : PrettyCrate.PrettyWriter)
    {schema : String → Json} (h : ∀ p ∈ schemaFiles, Derived (schema p.fst)) :
    derivedAssets schema = .ok (schemaAssets
      (fun file => (published file (schema file)).prettyBytes ++ [0x0a])) := by
  unfold derivedAssets
  rw [Except.mapM_congr (fun p hp => schemaAsset_eq_ok hwrite (h p hp))]
  exact List.mapM_pure

/-- **The field list of derived schemas** lists the fields they declare. -/
theorem exists_derivedFields [Crates] [UnicodeTables] (hread : Crates.Reader)
    {schema : String → Json} (h : ∀ p ∈ schemaFiles, Derived (schema p.fst)) :
    ∃ listed, fieldsBytes (schemaAssets
        (fun file => (published file (schema file)).prettyBytes ++ [0x0a]))
      = .ok (Json.utf8 (fieldsText listed))
      ∧ ∀ field, field ∈ listed.elems ↔ DeclaredBy schema field := by
  have hvalue : ∀ p ∈ schemaFiles, Crates.fromSlice
      ((published p.fst (schema p.fst)).prettyBytes ++ [0x0a])
        = .ok (published p.fst (schema p.fst)) := fun p hp => fromSlice_published hread (h p hp)
  have hread : ∀ asset ∈ schemaAssets
      (fun file => (published file (schema file)).prettyBytes ++ [0x0a]),
      ∃ value, Crates.fromSlice asset.bytes = .ok value := by
    intro asset hasset
    obtain ⟨p, hp, rfl⟩ := List.mem_map.mp hasset
    exact ⟨_, hvalue p hp⟩
  obtain ⟨listed, hlisted, hmem⟩ := exists_fieldsBytes hread
  refine ⟨listed, hlisted, fun field => ?_⟩
  unfold DeclaredBy
  rw [hmem field]
  unfold schemaAssets
  simp only [List.mem_map, exists_exists_and_eq_and]
  refine exists_congr (fun p => and_congr_right (fun hp => ?_))
  show (∃ value, Crates.fromSlice ((published p.fst (schema p.fst)).prettyBytes ++ [0x0a])
    = .ok value ∧ _) ↔ _
  rw [hvalue p hp]
  simp only [Except.ok.injEq, exists_eq_left']
  exact declared_published_iff (h p hp) field

/-! ## One list for one set of fields -/

/-- **The field list records the fields of the contract.** The schemas derived
for the types are written, read back, and their fields listed: the list is the
text of the fields they declare, and the lists of two families of schemas are
the same file exactly when the families declare the same fields. -/
theorem fieldsBytes_eq_iff_declaredBy [Crates] [PrettyCrate] [UnicodeTables]
    (hwrite : PrettyCrate.PrettyWriter) (hread : Crates.Reader) {schema schema' : String → Json}
    (h : ∀ p ∈ schemaFiles, Derived (schema p.fst))
    (h' : ∀ p ∈ schemaFiles, Derived (schema' p.fst)) :
    ∃ assets assets' fields fields', derivedAssets schema = .ok assets
      ∧ derivedAssets schema' = .ok assets'
      ∧ fieldsBytes assets = .ok fields
      ∧ fieldsBytes assets' = .ok fields'
      ∧ (∃ listed : OrderedSet Field, fields = Json.utf8 (fieldsText listed)
        ∧ ∀ field, field ∈ listed.elems ↔ DeclaredBy schema field)
      ∧ (fields = fields' ↔ ∀ field, DeclaredBy schema field ↔ DeclaredBy schema' field) := by
  obtain ⟨listed, hlisted, hmem⟩ := exists_derivedFields hread h
  obtain ⟨listed', hlisted', hmem'⟩ := exists_derivedFields hread h'
  refine ⟨_, _, _, _, derivedAssets_eq_ok hwrite h, derivedAssets_eq_ok hwrite h', hlisted,
    hlisted', ⟨listed, rfl, hmem⟩, ?_⟩
  constructor
  · intro hsame field
    have htext := Option.some.inj ((Json.utf8Decode_utf8 _).symm.trans
      ((congrArg Json.utf8Decode hsame).trans (Json.utf8Decode_utf8 _)))
    rw [← hmem, ← hmem', fieldsText_injective htext]
  · intro hdeclared
    have hset : listed = listed' := OrderedSet.ext_mem (fun field => by
      rw [hmem, hmem', hdeclared])
    rw [hset]

/-! ### Two layouts of a schema -/

/-- A schema of an object with one property. -/
def titleFirst : Json :=
  .obj [("title", .str "Observation"), ("properties", .obj [("digest", .obj [])])]

/-- The same schema with its members in the other order. -/
def propertiesFirst : Json :=
  .obj [("properties", .obj [("digest", .obj [])]), ("title", .str "Observation")]

theorem canonical_titleFirst : titleFirst.canonical = propertiesFirst := rfl

theorem iJson_titleFirst : titleFirst.IJson := by
  simp [titleFirst]

theorem depthLE_digest (n : ℕ) : (Json.obj [("digest", .obj [])]).DepthLE (n + 2) := by
  refine Json.depthLE_obj ?_
  rw [List.forall_mem_singleton]
  exact Json.depthLE_obj (fun _ hm => by cases hm)

theorem derived_titleFirst [Crates] : Derived titleFirst where
  isObject := ⟨_, rfl⟩
  noId := by decide
  iJson := iJson_titleFirst
  depth := by
    refine Json.depthLE_obj ?_
    rw [List.forall_mem_cons, List.forall_mem_singleton]
    exact ⟨Json.depthLE_str _ _, depthLE_digest _⟩

theorem derived_propertiesFirst [Crates] : Derived propertiesFirst where
  isObject := ⟨_, rfl⟩
  noId := by decide
  iJson := canonical_titleFirst ▸ iJson_titleFirst.layout Json.layout_canonical
  depth := by
    refine Json.depthLE_obj ?_
    rw [List.forall_mem_cons, List.forall_mem_singleton]
    exact ⟨depthLE_digest _, Json.depthLE_str _ _⟩

open Fixture in
/-- The order of the members of a schema does not show in the field list. -/
theorem fieldsBytes_titleFirst : ∃ assets assets' fields,
    derivedAssets (fun _ => titleFirst) = .ok assets
      ∧ derivedAssets (fun _ => propertiesFirst) = .ok assets'
      ∧ fieldsBytes assets = .ok fields
      ∧ fieldsBytes assets' = .ok fields := by
  obtain ⟨assets, assets', fields, fields', hassets, hassets', hfields, hfields', -, hsame⟩ :=
    @fieldsBytes_eq_iff_declaredBy _ _ _ prettyWriter reader (fun _ => titleFirst)
      (fun _ => propertiesFirst) (fun _ _ => derived_titleFirst)
      (fun _ _ => derived_propertiesFirst)
  obtain rfl := hsame.mpr (fun field => by
    unfold DeclaredBy
    rw [← canonical_titleFirst]
    simp only [declared_layout_iff Json.layout_canonical iJson_titleFirst])
  exact ⟨assets, assets', fields, hassets, hassets', hfields, hfields'⟩

end ContractSchema
