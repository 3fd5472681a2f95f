import NautilusAgents.Serde

/-!
# Deriving

The rules for structs and for enums without payloads, applied once to every
type that has such a form. A struct is given by the names of its fields, in
declaration order, and by the tuple its fields make up (`Serde.Struct`); an
enum without payloads by its variants under their names (`Serde.UnitEnum`).
Its serializer and deserializer, the round trip, strictness and the refusal of
`null` follow from the fields.

Every struct read here refuses undeclared members. A struct that let them pass
would need a rule of its own.
-/

namespace Serde

/-! ## Structs -/

/-- **The tuple of a struct's fields.** What is written and read, field by
field under the names, with the two laws carried along. -/
class Fields (β : Type) where
  /-- The number of fields. -/
  arity : ℕ
  /-- The members the fields are written as. -/
  write : List String → β → List (String × Json)
  /-- The fields read off the members found. -/
  read : List String → (String → Option Json) → Option β
  /-- The shapes of the fields. -/
  shapes : List String → List (String × Shape)
  /-- The members are written under the names. -/
  write_names : ∀ names v, names.length = arity → (write names v).map Prod.fst = names
  /-- What is written is a document the crates take. -/
  write_iJson : ∀ names v, ∀ m ∈ write names v, m.snd.IJson
  /-- Fields are read back from every layout of their documents. -/
  read_layout : ∀ {f : Json → Json}, Json.Layout f → ∀ names v found,
    names.length = arity → (∀ m ∈ write names v, found m.fst = some (f m.snd)) →
      read names found = some v
  /-- The shapes stand under the names. -/
  shapes_names : ∀ names, names.length = arity → (shapes names).map Prod.fst = names
  /-- Fields that are read conform to their shapes. -/
  conforms : ∀ names found v, read names found = some v →
    ∀ s ∈ shapes names, ∀ c, found s.fst = some c → Conforms s.snd c

/-- No field. -/
instance : Fields Unit where
  arity := 0
  write _ _ := []
  read _ _ := some ()
  shapes _ := []
  write_names names _ h := (List.length_eq_zero_iff.mp h).symm
  write_iJson _ _ m hm := by cases hm
  read_layout _ _ _ _ _ _ := rfl
  shapes_names names h := (List.length_eq_zero_iff.mp h).symm
  conforms _ _ _ _ s hs := by cases hs

/-- One field and the rest. -/
instance {α β : Type} [Serialize α] [Deserialize α] [LawfulSerde α] [Strict α]
    [Fields β] : Fields (α × β) where
  arity := Fields.arity β + 1
  write
    | name :: names, v => (name, serialize v.fst) :: Fields.write names v.snd
    | [], _ => []
  read
    | name :: names, found => do
      let v ← field found name
      let rest ← Fields.read names found
      some (v, rest)
    | [], _ => none
  shapes
    | name :: names => (name, Strict.shape α) :: Fields.shapes β names
    | [] => []
  write_names names v h := by
    cases names with
    | nil => cases h
    | cons name names =>
      exact congrArg (name :: ·) (Fields.write_names names v.snd (Nat.succ.inj h))
  write_iJson names v m hm := by
    cases names with
    | nil => cases hm
    | cons name names =>
      rcases List.mem_cons.mp hm with rfl | hm
      · exact LawfulSerde.iJson v.fst
      · exact Fields.write_iJson names v.snd m hm
  read_layout hf names v found h hfound := by
    cases names with
    | nil => cases h
    | cons name names =>
      have hhead : field found name = some v.fst := by
        unfold field
        rw [hfound (name, serialize v.fst) List.mem_cons_self]
        exact LawfulSerde.deserialize_layout hf v.fst
      have htail := Fields.read_layout hf names v.snd found (Nat.succ.inj h)
        (fun m hm => hfound m (List.mem_cons_of_mem _ hm))
      show (field found name).bind (fun w => (Fields.read names found).bind
        (fun rest => some (w, rest))) = some v
      rw [hhead, htail]
      rfl
  shapes_names names h := by
    cases names with
    | nil => cases h
    | cons name names =>
      exact congrArg (name :: ·) (Fields.shapes_names names (Nat.succ.inj h))
  conforms names found v h s hs := by
    cases names with
    | nil => cases h
    | cons name names =>
      simp only [Option.bind_eq_bind, Option.bind_eq_some_iff] at h
      obtain ⟨w, hw, rest, hrest, -⟩ := h
      rcases List.mem_cons.mp hs with rfl | hs
      · exact conforms_field hw
      · exact Fields.conforms names found rest hrest s hs

/-- **A struct**: the names of its fields in declaration order, and the tuple
of its fields. -/
class Struct (α : Type) where
  /-- The tuple the fields make up. -/
  Tuple : Type
  [fields : Fields Tuple]
  /-- The names of the fields. -/
  names : List String
  /-- The fields of a value. -/
  toTuple : α → Tuple
  /-- The value with these fields. -/
  ofTuple : Tuple → α
  /-- There is a name for every field. -/
  length_names : names.length = Fields.arity Tuple := by rfl
  /-- No name stands for two fields. -/
  nodup_names : names.Nodup := by decide
  /-- A value is made up of its fields. -/
  ofTuple_toTuple : ∀ v, ofTuple (toTuple v) = v := by intro v; rfl

attribute [reducible, instance] Struct.fields

section Struct

variable {α : Type} [Struct α]

/-- The members a struct is written as. -/
def structMembers (v : α) : List (String × Json) :=
  Fields.write (Struct.names α) (Struct.toTuple v)

theorem structMembers_names (v : α) :
    (structMembers v).map Prod.fst = Struct.names α :=
  Fields.write_names _ _ Struct.length_names

instance (priority := low) : Serialize α := ⟨fun v => .obj (structMembers v)⟩

instance (priority := low) : Deserialize α where
  deserialize j := do
    let found ← structFields (Struct.names α) j
    (Fields.read (Struct.names α) found).map Struct.ofTuple

instance (priority := low) : LawfulSerde α where
  iJson v := by
    refine .obj ?_ (Fields.write_iJson _ _)
    rw [structMembers_names]
    exact Struct.nodup_names
  deserialize_layout hf v := by
    show (structFields _ _).bind (fun found =>
      (Fields.read (Struct.names α) found).map Struct.ofTuple) = some v
    have hnd : ((structMembers v).map Prod.fst).Nodup := by
      rw [structMembers_names]
      exact Struct.nodup_names
    rw [show serialize v = .obj (structMembers v) from rfl,
      structFields_layout hf (structMembers_names v) Struct.nodup_names, Option.bind_some,
      Fields.read_layout hf _ (Struct.toTuple v) _ Struct.length_names (fun m hm => ?_),
      Option.map_some, Struct.ofTuple_toTuple]
    rw [(Json.lookup_eq_some_iff_mem hnd).mpr hm]
    rfl

instance (priority := low) : RejectsNull α := ⟨rfl⟩

instance (priority := low) : Strict α where
  shape := .struct (Fields.shapes (Struct.Tuple α) (Struct.names α))
  conforms {j} v h := by
    have hnames := Fields.shapes_names (β := Struct.Tuple α) (Struct.names α) Struct.length_names
    obtain ⟨found, hfound, hread⟩ := Option.bind_eq_some_iff.mp h
    obtain ⟨t, ht, -⟩ := Option.map_eq_some_iff.mp hread
    refine conforms_struct ?_ ?_ (Fields.conforms _ _ _ ht)
    · rw [hnames]
      exact Struct.nodup_names
    · rw [hnames]
      exact hfound

end Struct

/-! ## Enums without payloads -/

/-- **An enum without payloads**: its variants under their names. -/
class UnitEnum (α : Type) where
  /-- The variants in declaration order. -/
  variants : List (String × α)
  /-- The name of a variant. -/
  name : α → String
  /-- No name stands for two variants. -/
  nodup_names : (variants.map Prod.fst).Nodup := by decide
  /-- Every variant is listed under its name. -/
  mem_variants : ∀ v, (name v, v) ∈ variants := by intro v; cases v <;> decide

section UnitEnum

variable {α : Type} [UnitEnum α]

instance (priority := low) : Serialize α := ⟨fun v => .str (UnitEnum.name v)⟩

/-- The readers of the variants. -/
def unitTable (α : Type) [UnitEnum α] : List (String × (Option Json → Option α)) :=
  UnitEnum.variants.map (fun p => (p.fst, unitVariant p.snd))

instance (priority := low) : Deserialize α where
  deserialize := deserializeEnum (unitTable α)

instance (priority := low) : LawfulSerde α where
  iJson _ := .str _
  deserialize_layout hf v := by
    show (variant _).bind (fun p => ((unitTable α).lookup p.fst).bind
      (fun read => read p.snd)) = some v
    have hlookup : (unitTable α).lookup (UnitEnum.name v) = some (unitVariant v) := by
      have hnd : ((unitTable α).map Prod.fst).Nodup := by
        unfold unitTable
        rw [List.map_map]
        exact UnitEnum.nodup_names
      exact (Json.lookup_eq_some_iff_mem hnd).mpr
        (List.mem_map_of_mem (f := fun p => (p.fst, unitVariant p.snd)) (UnitEnum.mem_variants v))
    rw [show serialize v = .str (UnitEnum.name v) from rfl, variant_layout_str hf,
      Option.bind_some, hlookup]
    rfl

instance (priority := low) : RejectsNull α := ⟨rfl⟩

instance (priority := low) : Strict α where
  shape := .enum (UnitEnum.variants.map (fun p : String × α => (p.fst, Shape.leaf)))
  conforms {j} v h := by
    refine conforms_enum h ?_
    unfold unitTable
    rw [List.forall₂_map_left_iff, List.forall₂_map_right_iff]
    exact List.forall₂_same.mpr (fun p _ => ⟨rfl, conforms_unitVariant _⟩)

end UnitEnum

/-! ## Enums with payloads -/

/-- A variant without payload is read back from every layout. -/
theorem deserializeEnum_unit {α : Type} {f : Json → Json} (hf : Json.Layout f)
    {table : List (String × (Option Json → Option α))} {name : String} {v : α}
    (h : table.lookup name = some (unitVariant v)) :
    deserializeEnum table (f (.str name)) = some v := by
  show (variant _).bind (fun p => (table.lookup p.fst).bind (fun read => read p.snd)) = some v
  rw [variant_layout_str hf, Option.bind_some, h]
  rfl

/-- **A variant with a payload is read back** from every layout. -/
theorem deserializeEnum_newtype {α β : Type} [Serialize β] [Deserialize β] [LawfulSerde β]
    {f : Json → Json} (hf : Json.Layout f)
    {table : List (String × (Option Json → Option α))} {name : String} {make : β → α}
    (h : table.lookup name = some (newtypeVariant make)) (v : β) :
    deserializeEnum table (f (.obj [(name, serialize v)])) = some (make v) := by
  rw [layout_obj_singleton hf]
  show (table.lookup name).bind (fun read => read (some (f (serialize v)))) = some (make v)
  rw [h, Option.bind_some, newtypeVariant, Option.bind_some, LawfulSerde.deserialize_layout hf v]
  rfl

/-- A variant with a payload is an object of one member. -/
theorem iJson_newtype {β : Type} [Serialize β] [Deserialize β] [LawfulSerde β] (name : String)
    (v : β) : (Json.obj [(name, serialize v)]).IJson := by
  refine .obj (List.nodup_singleton _) (fun m hm => ?_)
  rw [List.mem_singleton.mp hm]
  exact LawfulSerde.iJson v

end Serde
