import NautilusAgents.Derive
import NautilusAgents.Schema

/-!
# Derived schemas

The schema a type is published with, derived as its deserializer is: a struct
is an object of its fields, which are required unless they are optional; an
enum without payloads is one of its names; a set is a list without repetition.

Deriving both from one type does not make them accept the same documents. A
derived deserializer takes liberties that no schema grants: it reads a struct
from an array of its fields, a variant without payload from an object that
holds `null` under the name, and a set from a list that repeats an element.
`Serde.Form` is what is left of a type when its scalars are forgotten, and
`Serde.Plain` says that a document takes none of these liberties. Among the
documents that are read, the schema accepts exactly the plain ones
(`Described.accepts_iff`), so these are all the liberties there are.
-/

namespace Serde

/-! ## Plain documents -/

/-- **The form of a type's documents.** -/
inductive Form where
  /-- A scalar. -/
  | scalar
  /-- A value that may be left out. -/
  | optional (form : Form)
  /-- A list of items of one form. -/
  | list (item : Form)
  /-- A set of items of one form. -/
  | set (item : Form)
  /-- A struct: its fields in declaration order. -/
  | struct (fields : List (String × Form))
  /-- An enum: its variants, each with the form of its payload if it has
  one. -/
  | enum (variants : List (String × Option Form))

/-- **A plain document** of a form: structs are objects, variants without
payload are names, and no set repeats an element, at every depth. -/
inductive Plain : Form → Json → Prop where
  | scalar {j : Json} : Plain .scalar j
  | absent {form : Form} : Plain (.optional form) .null
  | present {form : Form} {j : Json} (h : Plain form j) : Plain (.optional form) j
  | list {item : Form} {xs : List Json} (h : ∀ x ∈ xs, Plain item x) : Plain (.list item) (.arr xs)
  | set {item : Form} {xs : List Json} (h : ∀ x ∈ xs, Plain item x)
      (hdistinct : xs.Pairwise (fun x y => ¬ x.Same y)) : Plain (.set item) (.arr xs)
  | struct {fields : List (String × Form)} {ms : List (String × Json)}
      (h : ∀ m ∈ ms, ∀ form, fields.lookup m.fst = some form → Plain form m.snd) :
      Plain (.struct fields) (.obj ms)
  | name {variants : List (String × Option Form)} {name : String} :
      Plain (.enum variants) (.str name)
  | payload {variants : List (String × Option Form)} {name : String} {form : Form} {j : Json}
      (hform : variants.lookup name = some (some form)) (h : Plain form j) :
      Plain (.enum variants) (.obj [(name, j)])

theorem plain_list_iff {item : Form} {xs : List Json} :
    Plain (.list item) (.arr xs) ↔ ∀ x ∈ xs, Plain item x :=
  ⟨fun | .list h => h, .list⟩

theorem plain_set_iff {item : Form} {xs : List Json} :
    Plain (.set item) (.arr xs) ↔
      (∀ x ∈ xs, Plain item x) ∧ xs.Pairwise (fun x y => ¬ x.Same y) :=
  ⟨fun | .set h hdistinct => ⟨h, hdistinct⟩, fun h => .set h.1 h.2⟩

theorem plain_struct_iff {fields : List (String × Form)} {ms : List (String × Json)} :
    Plain (.struct fields) (.obj ms) ↔
      ∀ m ∈ ms, ∀ form, fields.lookup m.fst = some form → Plain form m.snd :=
  ⟨fun | .struct h => h, .struct⟩

theorem plain_optional_iff {form : Form} {j : Json} (h : j ≠ .null) :
    Plain (.optional form) j ↔ Plain form j := by
  refine ⟨fun hplain => ?_, .present⟩
  cases hplain with
  | absent => exact absurd rfl h
  | present hplain => exact hplain

theorem plain_payload_iff {variants : List (String × Option Form)} {name : String}
    {form : Form} {j : Json} (hform : variants.lookup name = some (some form)) :
    Plain (.enum variants) (.obj [(name, j)]) ↔ Plain form j := by
  refine ⟨fun hplain => ?_, .payload hform⟩
  cases hplain with
  | payload hform' h =>
    rw [hform, Option.some.injEq, Option.some.injEq] at hform'
    exact hform' ▸ h

end Serde

open Serde

/-- **Types with a published schema**, which accepts the plain ones among the
documents that are read. -/
class Described (α : Type) [Deserialize α] where
  /-- The schema. -/
  schema : Schema
  /-- The form of the documents. -/
  form : Form
  /-- Whether a field of the type is required. -/
  required : Bool := true
  /-- A required field has no value where it is left out. -/
  missing_of_required : required = true → (Deserialize.missing : Option α) = none := by
    intro _
    rfl
  /-- Of what is read, the schema accepts the plain documents. -/
  accepts_iff : ∀ {j : Json} {v : α}, deserialize j = some v → (schema j ↔ Plain form j)

namespace Serde

/-! ## Structs -/

/-- **The fields of a struct, described**: their schemas, the names of those
that are required, and their forms. -/
class DescribedFields (β : Type) [Fields β] where
  /-- The schemas of the fields. -/
  properties : List String → List (String × Schema)
  /-- The names of the required fields. -/
  required : List String → List String
  /-- The forms of the fields. -/
  forms : List String → List (String × Form)
  /-- The schemas stand under the names. -/
  properties_names : ∀ names, names.length = Fields.arity β →
    (properties names).map Prod.fst = names
  /-- A required field is found wherever the fields are read. -/
  isSome_of_required : ∀ names found (v : β), Fields.read names found = some v →
    ∀ name ∈ required names, (found name).isSome = true
  /-- Of what is read, the schemas accept the plain members. -/
  accepts_iff : ∀ names found (v : β), Fields.read names found = some v →
    List.Forall₂ (fun p q => p.fst = q.fst ∧
      ∀ c, found p.fst = some c → (p.snd c ↔ Plain q.snd c)) (properties names) (forms names)

/-- No field. -/
instance : DescribedFields Unit where
  properties _ := []
  required _ := []
  forms _ := []
  properties_names names h := (List.length_eq_zero_iff.mp h).symm
  isSome_of_required _ _ _ _ name hname := by cases hname
  accepts_iff _ _ _ _ := .nil

/-- One field and the rest. The fields are those of the tuple at hand, so what
reads them is implicit. -/
instance DescribedFields.pair {α β : Type} {_ : Serialize α} {_ : Deserialize α}
    {_ : LawfulSerde α} {_ : Strict α} {_ : Fields β} [Described α] [DescribedFields β] :
    DescribedFields (α × β) where
  properties
    | name :: names => (name, Described.schema α) :: DescribedFields.properties β names
    | [] => []
  required
    | name :: names =>
      if Described.required α = true then name :: DescribedFields.required β names
      else DescribedFields.required β names
    | [] => []
  forms
    | name :: names => (name, Described.form α) :: DescribedFields.forms β names
    | [] => []
  properties_names names h := by
    cases names with
    | nil => cases h
    | cons name names =>
      exact congrArg (name :: ·) (DescribedFields.properties_names names (Nat.succ.inj h))
  isSome_of_required names found v h := by
    cases names with
    | nil => cases h
    | cons name names =>
      simp only [Fields.read, Option.bind_eq_bind, Option.bind_eq_some_iff] at h
      obtain ⟨w, hw, rest, hrest, -⟩ := h
      have htail := DescribedFields.isSome_of_required names found rest hrest
      show ∀ n ∈ (if Described.required α = true then _ else _), _
      split_ifs with hreq
      · refine List.forall_mem_cons.mpr ⟨?_, htail⟩
        cases hname : found name with
        | some c => rfl
        | none =>
          rw [field, hname] at hw
          exact absurd (hw.symm.trans (Described.missing_of_required hreq)) (by simp)
      · exact htail
  accepts_iff names found v h := by
    cases names with
    | nil => cases h
    | cons name names =>
      simp only [Fields.read, Option.bind_eq_bind, Option.bind_eq_some_iff] at h
      obtain ⟨w, hw, rest, hrest, -⟩ := h
      refine .cons ⟨rfl, fun c hc => ?_⟩ (DescribedFields.accepts_iff names found rest hrest)
      rw [field, hc] at hw
      exact Described.accepts_iff hw

/-- A declared name finds its schema where it finds its form. -/
theorem lookup_accepts_iff {found : String → Option Json} {properties : List (String × Schema)}
    {forms : List (String × Form)}
    (h : List.Forall₂ (fun p q => p.fst = q.fst ∧
      ∀ c, found p.fst = some c → (p.snd c ↔ Plain q.snd c)) properties forms)
    {name : String} {c : Json} (hc : found name = some c) :
    (∀ s, properties.lookup name = some s → s c) ↔
      ∀ form, forms.lookup name = some form → Plain form c := by
  induction h with
  | nil => simp
  | @cons p q properties forms hpq _ ih =>
    rw [List.lookup_cons, List.lookup_cons, ← hpq.1]
    cases hname : name == p.fst with
    | false => simpa only [hname] using ih
    | true =>
      rw [beq_iff_eq] at hname
      simpa only [beq_self_eq_true, Option.some.injEq, forall_eq'] using hpq.2 c (hname ▸ hc)

/-- **The schema of a struct accepts its plain documents**, and refuses an
array of its fields. -/
theorem accepts_struct_iff {properties : List (String × Schema)} {required : List String}
    {forms : List (String × Form)} {j : Json} {found : String → Option Json}
    (hfound : structFields (properties.map Prod.fst) j = some found)
    (hrequired : ∀ name ∈ required, (found name).isSome = true)
    (h : List.Forall₂ (fun p q => p.fst = q.fst ∧
      ∀ c, found p.fst = some c → (p.snd c ↔ Plain q.snd c)) properties forms) :
    Schema.object properties required j ↔ Plain (.struct forms) j := by
  cases j with
  | obj ms =>
    rw [structFields] at hfound
    split_ifs at hfound with hcond
    rw [Option.some.injEq] at hfound
    subst hfound
    have hmem : ∀ name ∈ required, name ∈ ms.map Prod.fst := by
      intro name hname
      obtain ⟨c, hc⟩ := Option.isSome_iff_exists.mp (hrequired name hname)
      exact List.mem_map_of_mem (Json.mem_of_lookup_eq_some hc)
    rw [Schema.object_obj, plain_struct_iff, and_iff_right hcond.1, and_iff_left hmem]
    refine forall₂_congr (fun m hm => ?_)
    exact @lookup_accepts_iff (fun name => ms.lookup name) _ _ h _ _
      ((Json.lookup_eq_some_iff_mem hcond.2).mpr hm)
  | arr xs => exact iff_of_false Schema.object_arr (fun hplain => by cases hplain)
  | _ => exact absurd hfound (by simp [structFields])

section Struct

variable {α : Type} [Struct α] [DescribedFields (Struct.Tuple α)]

instance (priority := low) : Described α where
  schema := Schema.object (DescribedFields.properties (Struct.Tuple α) (Struct.names α))
    (DescribedFields.required (Struct.Tuple α) (Struct.names α))
  form := .struct (DescribedFields.forms (Struct.Tuple α) (Struct.names α))
  accepts_iff {j} v h := by
    obtain ⟨found, hfound, hread⟩ := Option.bind_eq_some_iff.mp h
    obtain ⟨t, ht, -⟩ := Option.map_eq_some_iff.mp hread
    refine accepts_struct_iff ?_ (DescribedFields.isSome_of_required _ _ t ht)
      (DescribedFields.accepts_iff _ _ t ht)
    rw [DescribedFields.properties_names _ Struct.length_names]
    exact hfound

end Struct

/-! ## Enums -/

/-- The schema of a variant: its name, or an object that holds the payload
under it. -/
def variantSchema (variant : String × Option (Schema × Form)) : Schema :=
  match variant.snd with
  | none => Schema.name variant.fst
  | some payload => Schema.object [(variant.fst, payload.fst)] [variant.fst]

/-- **The schema of an enum**: one of its variants. -/
def enumSchema (variants : List (String × Option (Schema × Form))) : Schema :=
  Schema.oneOf (variants.map variantSchema)

/-- The form of an enum. -/
def enumForm (variants : List (String × Option (Schema × Form))) : Form :=
  .enum (variants.map (fun variant => (variant.fst, variant.snd.map Prod.snd)))

/-- The schema of a variant accepts its own name only. -/
theorem variantSchema_str {variant : String × Option (Schema × Form)} {name : String} :
    variantSchema variant (.str name) ↔ variant.snd = none ∧ name = variant.fst := by
  obtain ⟨key, _ | payload⟩ := variant
  · exact Schema.name_str.trans (and_iff_right rfl).symm
  · exact iff_of_false Schema.object_str (fun h => by cases h.1)

/-- The schema of a variant accepts payloads under its own name only. -/
theorem variantSchema_obj {variant : String × Option (Schema × Form)} {name : String}
    {j : Json} :
    variantSchema variant (.obj [(name, j)]) ↔
      name = variant.fst ∧ ∃ payload, variant.snd = some payload ∧ payload.fst j := by
  obtain ⟨key, _ | payload⟩ := variant
  · exact iff_of_false Schema.name_obj (fun ⟨_, _, h, _⟩ => by cases h)
  · show Schema.object [(key, payload.fst)] [key] (.obj [(name, j)]) ↔ _
    rw [Schema.object_singleton]
    exact and_congr Iff.rfl (by simp)

/-- The reader of a variant, and what is known of it: without payload it takes
no document but `null`, and with one it takes a payload that its schema
describes. -/
def DescribedVariant {α : Type} (reader : String × (Option Json → Option α))
    (variant : String × Option (Schema × Form)) : Prop :=
  reader.fst = variant.fst ∧
    match variant.snd with
    | none => True
    | some payload => reader.snd none = none ∧
        ∀ c w, reader.snd (some c) = some w → (payload.fst c ↔ Plain payload.snd c)

theorem describedVariant_unit {α : Type} {name : String} (v : α) :
    DescribedVariant (name, unitVariant v) (name, none) := ⟨rfl, trivial⟩

theorem describedVariant_newtype {α β : Type} [Deserialize α] [Described α] {name : String}
    (make : α → β) :
    DescribedVariant (name, newtypeVariant make)
      (name, some (Described.schema α, Described.form α)) := by
  refine ⟨rfl, rfl, fun c w h => ?_⟩
  obtain ⟨v, hv, -⟩ := Option.map_eq_some_iff.mp
    (show (deserialize c).map make = some w from h)
  exact Described.accepts_iff hv

/-- The reader a name finds belongs to the variant the name finds. -/
theorem exists_variant_of_lookup {α : Type} {table : List (String × (Option Json → Option α))}
    {variants : List (String × Option (Schema × Form))}
    (h : List.Forall₂ DescribedVariant table variants) {name : String}
    {read : Option Json → Option α} (hread : table.lookup name = some read) :
    ∃ payload, (name, payload) ∈ variants ∧ DescribedVariant (name, read) (name, payload) := by
  induction h with
  | nil => cases hread
  | @cons t s table variants hts _ ih =>
    rw [List.lookup_cons] at hread
    cases hname : name == t.fst with
    | false =>
      rw [hname] at hread
      obtain ⟨payload, hmem, hdescribed⟩ := ih hread
      exact ⟨payload, List.mem_cons_of_mem _ hmem, hdescribed⟩
    | true =>
      rw [hname] at hread
      obtain rfl : t.snd = read := Option.some.inj hread
      obtain rfl := (beq_iff_eq.mp hname).trans hts.1
      exact ⟨s.snd, List.mem_cons_self, rfl, hts.2⟩

section Variant

variable {variants : List (String × Option (Schema × Form))} {name : String}
  {payload : Option (Schema × Form)}

/-- Where names are distinct, the schema of an enum takes a name for the
variant of that name. -/
theorem enumSchema_str_iff (hnd : (variants.map Prod.fst).Nodup)
    (hmem : (name, payload) ∈ variants) : enumSchema variants (.str name) ↔ payload = none := by
  unfold enumSchema
  rw [Schema.oneOf_map_iff hnd.of_map hmem (fun b hb hne hb' => hne (List.inj_on_of_nodup_map hnd
    hb hmem (variantSchema_str.mp hb').2.symm)), variantSchema_str]
  exact and_iff_left rfl

/-- And it takes a payload for that of the variant of the name. -/
theorem enumSchema_obj_iff (hnd : (variants.map Prod.fst).Nodup)
    (hmem : (name, payload) ∈ variants) {j : Json} :
    enumSchema variants (.obj [(name, j)]) ↔ ∃ p, payload = some p ∧ p.fst j := by
  unfold enumSchema
  rw [Schema.oneOf_map_iff hnd.of_map hmem (fun b hb hne hb' => hne (List.inj_on_of_nodup_map hnd
    hb hmem (variantSchema_obj.mp hb').1.symm)), variantSchema_obj]
  exact and_iff_right rfl

end Variant

/-- **The schema of an enum accepts its plain documents**, and refuses a
variant without payload that is written as an object. -/
theorem accepts_enum_iff {α : Type} {table : List (String × (Option Json → Option α))}
    {variants : List (String × Option (Schema × Form))}
    (hnd : (variants.map Prod.fst).Nodup) (h : List.Forall₂ DescribedVariant table variants)
    {j : Json} {v : α} (hread : deserializeEnum table j = some v) :
    enumSchema variants j ↔ Plain (enumForm variants) j := by
  rw [deserializeEnum] at hread
  simp only [Option.bind_eq_bind, Option.bind_eq_some_iff] at hread
  obtain ⟨⟨name, document⟩, hvariant, read, hlookup, hv⟩ := hread
  obtain ⟨payload, hmem, hdescribed⟩ := exists_variant_of_lookup h hlookup
  have hformLookup : (variants.map (fun variant => (variant.fst, variant.snd.map Prod.snd))).lookup
      name = some (payload.map Prod.snd) := by
    refine (Json.lookup_eq_some_iff_mem ?_).mpr (List.mem_map.mpr ⟨_, hmem, rfl⟩)
    rw [List.map_map]
    exact hnd
  unfold variant at hvariant
  split at hvariant
  · -- a name alone
    rename_i s
    obtain ⟨rfl, rfl⟩ : s = name ∧ none = document := by simpa using hvariant
    refine iff_of_true ((enumSchema_str_iff hnd hmem).mpr ?_) .name
    cases payload with
    | none => rfl
    | some payload => exact absurd (hdescribed.2.1.symm.trans hv) (by simp)
  · -- an object that holds a payload under the name
    rename_i key c
    obtain ⟨rfl, rfl⟩ : key = name ∧ some c = document := by simpa using hvariant
    rw [enumSchema_obj_iff hnd hmem]
    cases payload with
    | none =>
      refine iff_of_false ?_ ?_
      · rintro ⟨payload, hpayload, -⟩
        cases hpayload
      · intro hplain
        cases hplain with
        | payload hform _ =>
          rw [hformLookup] at hform
          cases hform
    | some payload =>
      rw [enumForm, plain_payload_iff hformLookup]
      simpa using hdescribed.2.2 c v hv
  · cases hvariant

section UnitEnum

variable {α : Type} [UnitEnum α]

/-- The variants of an enum without payloads. -/
def unitVariants (α : Type) [UnitEnum α] : List (String × Option (Schema × Form)) :=
  UnitEnum.variants.map (fun p : String × α => (p.fst, none))

instance (priority := low) : Described α where
  schema := enumSchema (unitVariants α)
  form := enumForm (unitVariants α)
  accepts_iff {j} v h := by
    refine accepts_enum_iff ?_ ?_ h
    · unfold unitVariants
      rw [List.map_map]
      exact UnitEnum.nodup_names
    · unfold unitVariants unitTable
      rw [List.forall₂_map_left_iff, List.forall₂_map_right_iff]
      exact List.forall₂_same.mpr (fun p _ => describedVariant_unit p.snd)

end UnitEnum

end Serde

/-! ## Scalars and containers -/

instance : Described String where
  schema := Schema.type [.string]
  form := .scalar
  accepts_iff {j} v h := by
    cases j with
    | str s => exact iff_of_true (Schema.type_singleton.mpr rfl) .scalar
    | _ => cases h

instance : Described Bool where
  schema := Schema.type [.boolean]
  form := .scalar
  accepts_iff {j} v h := by
    cases j with
    | bool b => exact iff_of_true (Schema.type_singleton.mpr rfl) .scalar
    | _ => cases h

instance : Described UInt16 where
  schema := Schema.allOf [Schema.maximum 65535, Schema.minimum 0, Schema.type [.integer]]
  form := .scalar
  accepts_iff {j} v h := by
    cases j with
    | nat n =>
      have hn : n < 2 ^ 16 := by
        by_contra hn
        exact absurd ((if_neg hn).symm.trans h) (by simp)
      refine iff_of_true ?_ .scalar
      simp only [Schema.allOf_cons, Schema.allOf_nil, Schema.maximum, Schema.minimum,
        Schema.type_singleton, Json.numberValue, Option.some.injEq, forall_eq', Json.type, and_true]
      exact ⟨by exact_mod_cast Nat.le_of_lt_succ hn, by exact_mod_cast Nat.zero_le n⟩
    | _ => cases h

/-- **A checked text is described by a pattern** that its parser refines. -/
theorem accepts_text_iff {α : Type} [CheckedText α] {s : Schema} {j : Json} {v : α}
    (hs : ∀ t, CheckedText.accept t = some v → s (.str t)) (h : deserialize j = some v) :
    s j ↔ Plain .scalar j := by
  cases j with
  | str t => exact iff_of_true (hs t h) .scalar
  | _ => cases h

/-- A text or `null` is published as one type. -/
instance : Described (Option String) where
  schema := Schema.type [.string, .null]
  form := .optional .scalar
  required := false
  missing_of_required h := by cases h
  accepts_iff {j} v h := by
    cases j with
    | null => exact iff_of_true ⟨_, List.mem_cons_of_mem _ List.mem_cons_self, rfl⟩ .absent
    | str s => exact iff_of_true ⟨_, List.mem_cons_self, rfl⟩ (.present .scalar)
    | _ => cases h

instance (priority := low) {α : Type} [Deserialize α] [Described α] : Described (Option α) where
  schema := Schema.orNull (Described.schema α)
  form := .optional (Described.form α)
  required := false
  missing_of_required h := by cases h
  accepts_iff {j} v h := by
    cases j with
    | null => exact iff_of_true Schema.orNull_null .absent
    | _ =>
      obtain ⟨w, hw, -⟩ := Option.map_eq_some_iff.mp h
      rw [Schema.orNull_iff (by simp), plain_optional_iff (by simp)]
      exact Described.accepts_iff hw

instance {α : Type} [Deserialize α] [Described α] : Described (List α) where
  schema := Schema.array (Described.schema α)
  form := .list (Described.form α)
  accepts_iff {j} v h := by
    cases j with
    | arr xs =>
      rw [Schema.array_arr, plain_list_iff]
      refine forall₂_congr (fun x hx => ?_)
      obtain ⟨w, hw⟩ := forall_mem_of_mapM_eq_some h x hx
      exact Described.accepts_iff hw
    | _ => cases h

instance {α : Type} [LinearOrder α] [Deserialize α] [Described α] :
    Described (OrderedSet α) where
  schema := Schema.set (Described.schema α)
  form := .set (Described.form α)
  accepts_iff {j} v h := by
    obtain ⟨vs, hvs, -⟩ := Option.map_eq_some_iff.mp h
    cases j with
    | arr xs =>
      rw [Schema.set_arr, plain_set_iff]
      refine and_congr (forall₂_congr (fun x hx => ?_)) Iff.rfl
      obtain ⟨w, hw⟩ := forall_mem_of_mapM_eq_some hvs x hx
      exact Described.accepts_iff hw
    | _ => cases hvs
