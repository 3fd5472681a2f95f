import NautilusAgents.CanonicalForm
import NautilusAgents.Described
import NautilusAgents.DocumentGrammar
import NautilusAgents.PrettyText

/-!
# Exact schemas

A derived deserializer reads documents that the derived schema refuses, and
`Serde.Plain` is what tells them apart. Here is the other direction: what of a
document that meets the schema can keep it from being read. Its structure
cannot, since a schema asks for the members, the variants and the types of the
items in as many words. It may repeat a name, or write an integer with a point
or an exponent, neither of which a schema sees. And a checked text may be
refused by its check, where the check asks for something that the keywords do
not say.

What the check of a text asks for beyond its schema is a condition on texts, and
a document that meets the schema is read just when the texts in it satisfy the
condition of their checks, each at its place (`Serde.TextsMeet`). `Serde.Exact`
says this of a type, for documents whose numbers are written as natural ones,
and that its serializer keeps to the schema in any layout of its documents; it
is derived from the fields and the variants as the schema is. The two directions
together leave nothing open (`Serde.exists_plain_iff`).
-/

namespace Json.DistinctNames

theorem nodup {ms : List (String × Json)} (h : DistinctNames (.obj ms)) :
    (ms.map Prod.fst).Nodup := h [] ms (place_nil _)

theorem member {ms : List (String × Json)} (h : DistinctNames (.obj ms)) {i : ℕ}
    {m : String × Json} (hm : ms[i]? = some m) : m.snd.DistinctNames := by
  refine h.child (i := i) ?_
  rw [Json.child, hm]
  rfl

theorem item {xs : List Json} (h : DistinctNames (.arr xs)) {i : ℕ} {x : Json}
    (hx : xs[i]? = some x) : x.DistinctNames := h.child (i := i) hx

end Json.DistinctNames

namespace Serde

/-! ## Lists that go together name by name -/

theorem map_fst_eq_of_forall₂ {γ δ : Type} {R : String × γ → String × δ → Prop}
    (hR : ∀ p q, R p q → p.fst = q.fst) {ps : List (String × γ)} {qs : List (String × δ)}
    (h : List.Forall₂ R ps qs) : ps.map Prod.fst = qs.map Prod.fst := by
  induction h with
  | nil => rfl
  | cons hpq _ ih => rw [List.map_cons, List.map_cons, hR _ _ hpq, ih]

/-- What a name finds in the one list goes with what it finds in the other. -/
theorem exists_lookup_of_forall₂ {γ δ : Type} {R : String × γ → String × δ → Prop}
    (hR : ∀ p q, R p q → p.fst = q.fst) {ps : List (String × γ)} {qs : List (String × δ)}
    (h : List.Forall₂ R ps qs) {name : String} {d : δ} (hd : qs.lookup name = some d) :
    ∃ c, ps.lookup name = some c ∧ R (name, c) (name, d) := by
  induction h with
  | nil => cases hd
  | @cons p q ps qs hpq _ ih =>
    rw [List.lookup_cons] at hd ⊢
    rw [hR p q hpq]
    cases hname : name == q.fst with
    | false =>
      rw [hname] at hd
      exact ih hd
    | true =>
      rw [hname] at hd
      have hp : (name, p.snd) = p := Prod.ext ((beq_iff_eq.mp hname).trans (hR p q hpq).symm) rfl
      have hq : (name, d) = q := Prod.ext (beq_iff_eq.mp hname) (Option.some.inj hd).symm
      exact ⟨p.snd, rfl, by rw [hp, hq]; exact hpq⟩

/-! ## Texts at their places -/

/-- **The texts of a document satisfy a condition**, wherever they stand for a
checked text. What is asked of a text may depend on its check. -/
def TextsMeet (B : (String → Bool) → String → Prop) (g : Grammar) (j : Json) : Prop :=
  ∀ path accepts s, Grammar.At g j path (.text accepts) (.str s) → B accepts s

variable {B : (String → Bool) → String → Prop}

namespace TextsMeet

theorem text {accepts : String → Bool} {s : String} (h : TextsMeet B (.text accepts) (.str s)) :
    B accepts s := h [] accepts s .here

theorem optional {g : Grammar} {j : Json} (h : TextsMeet B (.optional g) j) : TextsMeet B g j :=
  fun path accepts s hat => h path accepts s (.optional hat)

theorem item {g : Grammar} {xs : List Json} (h : TextsMeet B (.list g) (.arr xs)) {i : ℕ}
    {x : Json} (hx : xs[i]? = some x) : TextsMeet B g x :=
  fun path accepts s hat => h (i :: path) accepts s (.item hx hat)

theorem member {fields : List (String × Grammar)} {ms : List (String × Json)}
    (h : TextsMeet B (.struct fields) (.obj ms)) {i : ℕ} {m : String × Json} (hm : ms[i]? = some m)
    {g : Grammar} (hg : fields.lookup m.fst = some g) : TextsMeet B g m.snd :=
  fun path accepts s hat => h (i :: path) accepts s (.member hm hg hat)

theorem payload {variants : List (String × Grammar)} {name : String} {j : Json}
    (h : TextsMeet B (.enum variants) (.obj [(name, j)])) {g : Grammar}
    (hg : variants.lookup name = some g) : TextsMeet B g j :=
  fun path accepts s hat => h (0 :: path) accepts s (.payload hg hat)

end TextsMeet

/-- A text in a document that is read is read at its place. -/
theorem Grammar.At.accepts_str {g g' : Grammar} {j c : Json} {path : List ℕ}
    (h : At g j path g' c) (hc : c ≠ .null) (hacc : Accepts g j) : Accepts g' c := by
  induction h with
  | here => exact hacc
  | @optional g g' j c path h ih =>
    cases hacc with
    | absent =>
      obtain rfl := h.eq_nil_of_null
      exact absurd h.root.1 hc
    | present hacc => exact ih hc hacc
  | item hx _ ih => exact ih hc (accepts_list_iff.mp hacc _ (List.mem_of_getElem? hx))
  | member hm hg _ ih =>
    cases hacc with
    | object _ _ hread => exact ih hc (hread _ (List.mem_of_getElem? hm) _ hg)
  | position hf hx _ ih =>
    cases hacc with
    | tuple _ hread => exact ih hc (hread _ _ _ hf hx)
  | payload hg _ ih => exact ih hc ((accepts_payload_iff hg).mp hacc)

/-- **The texts of a document that is read** satisfy what their checks ask. -/
theorem textsMeet_of_accepts (hB : ∀ accepts s, accepts s = true → B accepts s) {g : Grammar}
    {j : Json} (hacc : Accepts g j) : TextsMeet B g j := by
  intro path accepts s hat
  cases hat.accepts_str Json.noConfusion hacc with
  | text h => exact hB accepts s h

/-- **The numbers of a document that is read** are written as natural ones. -/
theorem natural_of_accepts {g : Grammar} {j : Json} (h : Accepts g j) : j.Natural := by
  induction h with
  | text => exact .str _
  | boolean => exact .bool _
  | natural => exact .nat _
  | unit => exact .null
  | absent => exact .null
  | present _ ih => exact ih
  | list _ ih => exact .arr ih
  | object hdeclared _ _ _ ih =>
    refine .obj (fun m hm => ?_)
    obtain ⟨g, hg⟩ := Json.exists_lookup_eq_some (hdeclared m hm)
    exact ih m hm g hg
  | tuple hlen _ ih =>
    refine .arr (fun x hx => ?_)
    obtain ⟨i, hi⟩ := List.mem_iff_getElem?.mp hx
    obtain ⟨hlt, -⟩ := List.getElem?_eq_some_iff.mp hi
    exact ih i _ x (List.getElem?_eq_getElem (hlen ▸ hlt)) hi
  | name => exact .str _
  | payload _ _ ih => exact .obj (List.forall_mem_singleton.mpr ih)

/-! ## Types with an exact schema -/

/-- **An exact schema.** What is written is plain, in any layout, and what meets
the schema without repeating a name is read, where its numbers are written as
natural ones and the texts in it satisfy the condition. -/
class Exact (B : (String → Bool) → String → Prop) (α : Type) [Serialize α] [Deserialize α]
    [Described α] [Grammatical α] : Prop where
  /-- Every layout of what is written is plain. -/
  plain : ∀ {f : Json → Json}, Json.Layout f → ∀ v : α, Plain (Described.form α) (f (serialize v))
  /-- What meets the schema is read, under the conditions. -/
  accepts : ∀ {j : Json}, j.DistinctNames → j.Natural → Described.schema α j →
    TextsMeet B (Grammatical.grammar α) j → Accepts (Grammatical.grammar α) j
  /-- What the schema does not require may be left out. -/
  isOptional : Described.required α = false → (Grammatical.grammar α).isOptional = true := by
    intro h
    cases h

section Exact

variable {α : Type} [Serialize α] [Deserialize α] [Described α] [Grammatical α]

/-- **What is written meets the schema**, in any layout. -/
theorem schema_layout [LawfulSerde α] [Exact B α] {f : Json → Json} (hf : Json.Layout f) (v : α) :
    Described.schema α (f (serialize v)) :=
  (Described.accepts_iff (LawfulSerde.deserialize_layout hf v)).mpr (Exact.plain B hf v)

/-- **The plain documents that are read** are those that meet the schema, repeat
no name, write their numbers as natural ones, and whose texts satisfy the
condition. -/
theorem exists_plain_iff [Exact B α] (hB : ∀ accepts s, accepts s = true → B accepts s)
    (j : Json) :
    ((∃ v : α, deserialize j = some v) ∧ Plain (Described.form α) j) ↔
      (Described.schema α j ∧ j.DistinctNames ∧ j.Natural ∧
        TextsMeet B (Grammatical.grammar α) j) := by
  constructor
  · rintro ⟨⟨v, hv⟩, hplain⟩
    have hacc := (Grammatical.isSome_iff j).mp (Option.isSome_iff_exists.mpr ⟨v, hv⟩)
    exact ⟨(Described.accepts_iff hv).mpr hplain, fun _ _ hplace => nodup_of_accepts hacc hplace,
      natural_of_accepts hacc, textsMeet_of_accepts hB hacc⟩
  · rintro ⟨hschema, hnames, hnatural, htexts⟩
    have hacc := Exact.accepts hnames hnatural hschema htexts
    obtain ⟨v, hv⟩ := Option.isSome_iff_exists.mp ((Grammatical.isSome_iff j).mpr hacc)
    exact ⟨⟨v, hv⟩, (Described.accepts_iff hv).mp hschema⟩

end Exact

/-! ## Structs -/

/-- A member a field is written as and the form of the field, in a layout. -/
def PlainField (f : Json → Json) (m : String × Json) (p : String × Form) : Prop :=
  m.fst = p.fst ∧ Plain p.snd (f m.snd)

/-- The schema of a field and its grammar. -/
def ExactField (B : (String → Bool) → String → Prop) (p : String × Schema)
    (q : String × Grammar) : Prop :=
  p.fst = q.fst ∧
    ∀ c : Json, c.DistinctNames → c.Natural → p.snd c → TextsMeet B q.snd c → Accepts q.snd c

/-- **The fields of a struct with an exact schema.** -/
class ExactFields (B : (String → Bool) → String → Prop) (β : Type) [Fields β] [DescribedFields β]
    [GrammaticalFields β] : Prop where
  /-- Every layout of what is written is plain. -/
  plain : ∀ {f : Json → Json}, Json.Layout f → ∀ names (v : β), names.length = Fields.arity β →
    List.Forall₂ (PlainField f) (Fields.write names v) (DescribedFields.forms β names)
  /-- A member that meets its schema is read, under the conditions. -/
  accepts : ∀ names, names.length = Fields.arity β →
    List.Forall₂ (ExactField B) (DescribedFields.properties β names)
      (GrammaticalFields.grammars β names)
  /-- What the schemas do not require may be left out. -/
  isOptional : ∀ names, names.length = Fields.arity β → ∀ q ∈ GrammaticalFields.grammars β names,
    q.fst ∉ DescribedFields.required β names → q.snd.isOptional = true

/-- No field. -/
instance : ExactFields B Unit where
  plain _ _ _ _ := .nil
  accepts _ _ := .nil
  isOptional _ _ _ hq := absurd hq List.not_mem_nil

/-- One field and the rest. -/
instance ExactFields.pair {α β : Type} {_ : Serialize α} {_ : Deserialize α} {_ : LawfulSerde α}
    {_ : Strict α} {_ : Fields β} {_ : Described α} {_ : DescribedFields β} {_ : Grammatical α}
    {_ : GrammaticalFields β} [Exact B α] [ExactFields B β] : ExactFields B (α × β) where
  plain hf names v h := by
    cases names with
    | nil => cases h
    | cons name names =>
      exact .cons ⟨rfl, Exact.plain B hf v.fst⟩
        (ExactFields.plain B hf names v.snd (Nat.succ.inj h))
  accepts names h := by
    cases names with
    | nil => cases h
    | cons name names =>
      exact .cons ⟨rfl, fun _ hnames hnatural => Exact.accepts hnames hnatural⟩
        (ExactFields.accepts names (Nat.succ.inj h))
  isOptional names h q hq hnot := by
    cases names with
    | nil => cases h
    | cons name names =>
      have hrequired : q.fst ∉
          if Described.required α = true then name :: DescribedFields.required β names
          else DescribedFields.required β names := hnot
      rcases List.mem_cons.mp hq with rfl | hq
      · refine Exact.isOptional B (eq_false_of_ne_true (fun hreq => hrequired ?_))
        rw [if_pos hreq]
        exact List.mem_cons_self
      · refine ExactFields.isOptional B names (Nat.succ.inj h) q hq (fun hmem => hrequired ?_)
        split_ifs
        · exact List.mem_cons_of_mem _ hmem
        · exact hmem

/-- **An object is written plain**, in any layout, where its members are. -/
theorem plain_obj {f : Json → Json} (hf : Json.Layout f) {ms : List (String × Json)}
    (hnd : (ms.map Prod.fst).Nodup) {forms : List (String × Form)}
    (h : List.Forall₂ (PlainField f) ms forms) : Plain (.struct forms) (f (.obj ms)) := by
  have hfst : ∀ m p, PlainField f m p → m.fst = p.fst := fun _ _ hmp => hmp.1
  obtain ⟨ms', heq, hperm⟩ := hf.obj ms
  rw [heq, plain_struct_iff]
  intro m hm form hform
  obtain ⟨n, hn, rfl⟩ := List.mem_map.mp (hperm.mem_iff.mp hm)
  obtain ⟨c, hc, -, hplain⟩ := exists_lookup_of_forall₂ hfst h hform
  -- the name finds the member itself, since no other has it
  obtain rfl : c = n.snd :=
    Option.some.inj (hc.symm.trans ((Json.lookup_eq_some_iff_mem hnd).mpr hn))
  exact hplain

/-- Only an object meets the schema of a struct. -/
theorem exists_eq_obj_of_object {declared : List (String × Schema)} {names : List String} {j : Json}
    (h : Schema.object declared names j) : ∃ ms, j = .obj ms := by
  simp only [Schema.object, Schema.allOf_cons] at h
  have htype := Schema.type_singleton.mp h.2.2.2.1
  cases j with
  | obj ms => exact ⟨ms, rfl⟩
  | number lexeme => exact absurd htype (Json.type_number_ne (by decide) lexeme)
  | _ => cases htype

/-- **A document that meets the schema of a struct is read**, where the texts in
it satisfy the condition. -/
theorem accepts_of_object {properties : List (String × Schema)} {required : List String}
    {fields : List (String × Grammar)} (h : List.Forall₂ (ExactField B) properties fields)
    (hoptional : ∀ q ∈ fields, q.fst ∉ required → q.snd.isOptional = true) {j : Json}
    (hnames : j.DistinctNames) (hnatural : j.Natural)
    (hschema : Schema.object properties required j) (htexts : TextsMeet B (.struct fields) j) :
    Accepts (.struct fields) j := by
  obtain ⟨ms, rfl⟩ := exists_eq_obj_of_object hschema
  obtain ⟨hdeclared, hmembers, hrequired⟩ := Schema.object_obj.mp hschema
  have hfst : ∀ p q, ExactField B p q → p.fst = q.fst := fun _ _ hpq => hpq.1
  rw [map_fst_eq_of_forall₂ hfst h] at hdeclared
  refine .object hdeclared hnames.nodup (fun m hm g hg => ?_) (fun q hq hnot => ?_)
  · obtain ⟨s, hs, -, haccepts⟩ := exists_lookup_of_forall₂ hfst h hg
    obtain ⟨i, hi⟩ := List.mem_iff_getElem?.mp hm
    exact haccepts m.snd (hnames.member hi) (Json.natural_obj.mp hnatural m hm)
      (hmembers m hm s hs) (htexts.member hi hg)
  · exact hoptional q hq (fun hmem => hnot (hrequired _ hmem))

section Struct

variable {α : Type} [Struct α] [DescribedFields (Struct.Tuple α)]
  [GrammaticalFields (Struct.Tuple α)] [ExactFields B (Struct.Tuple α)]

instance (priority := low) : Exact B α where
  plain hf v := by
    have hnd : ((structMembers v).map Prod.fst).Nodup := by
      rw [structMembers_names]
      exact Struct.nodup_names
    exact plain_obj hf hnd (ExactFields.plain B hf _ (Struct.toTuple v) Struct.length_names)
  accepts := accepts_of_object (ExactFields.accepts (Struct.names α) Struct.length_names)
    (ExactFields.isOptional B (Struct.names α) Struct.length_names)

end Struct

/-! ## Enums -/

/-- The schema of a variant and the grammar of its payload. -/
def ExactVariant (B : (String → Bool) → String → Prop) (variant : String × Option (Schema × Form))
    (q : String × Grammar) : Prop :=
  variant.fst = q.fst ∧
    match variant.snd with
    | none => q.snd = .unit
    | some payload =>
      ∀ c : Json, c.DistinctNames → c.Natural → payload.fst c → TextsMeet B q.snd c →
        Accepts q.snd c

theorem exactVariant_unit (name : String) : ExactVariant B (name, none) (name, .unit) := ⟨rfl, rfl⟩

theorem exactVariant_newtype {α : Type} [Serialize α] [Deserialize α] [Described α] [Grammatical α]
    [Exact B α] (name : String) :
    ExactVariant B (name, some (Described.schema α, Described.form α))
      (name, Grammatical.grammar α) :=
  ⟨rfl, fun _ hnames hnatural => Exact.accepts hnames hnatural⟩

/-- Only a name meets the schema of a variant without payload. -/
theorem eq_str_of_name {name : String} {j : Json} (h : Schema.name name j) : j = .str name := by
  simp only [Schema.name, Schema.allOf_cons] at h
  exact h.1

/-- Only an object of one member meets the schema of a variant with a
payload. -/
theorem exists_eq_singleton {name : String} {s : Schema} {j : Json} (hnames : j.DistinctNames)
    (h : Schema.object [(name, s)] [name] j) : ∃ c, j = .obj [(name, c)] ∧ s c := by
  obtain ⟨ms, rfl⟩ := exists_eq_obj_of_object h
  obtain ⟨hdeclared, -, hrequired⟩ := Schema.object_obj.mp h
  have hkeys : ∀ k ∈ ms.map Prod.fst, k = name := by
    intro k hk
    obtain ⟨m, hm, rfl⟩ := List.mem_map.mp hk
    exact List.mem_singleton.mp (hdeclared m hm)
  have hall : ms.map Prod.fst = [name] := by
    refine List.perm_singleton.mp ((List.perm_ext_iff_of_nodup hnames.nodup
      (List.nodup_singleton name)).mpr (fun k => ?_))
    rw [List.mem_singleton]
    constructor
    · exact hkeys k
    · rintro rfl
      exact hrequired _ List.mem_cons_self
  obtain ⟨m, rfl, rfl⟩ := List.map_eq_singleton_iff.mp hall
  exact ⟨m.snd, rfl, (Schema.object_singleton.mp h).2⟩

/-- **A document that meets the schema of an enum is read**, where the texts in
it satisfy the condition. -/
theorem accepts_of_enumSchema {variants : List (String × Option (Schema × Form))}
    {grammars : List (String × Grammar)} (hnd : (variants.map Prod.fst).Nodup)
    (h : List.Forall₂ (ExactVariant B) variants grammars) {j : Json} (hnames : j.DistinctNames)
    (hnatural : j.Natural) (hschema : enumSchema variants j)
    (htexts : TextsMeet B (.enum grammars) j) :
    Accepts (.enum grammars) j := by
  obtain ⟨before, s, after, hsplit, hs, -⟩ := hschema
  obtain ⟨⟨name, payload⟩, hmem, rfl⟩ :=
    List.mem_map.mp (hsplit ▸ List.mem_append_right before List.mem_cons_self)
  have hfst : ∀ q v, flip (ExactVariant B) q v → q.fst = v.fst := fun _ _ hqv => hqv.1.symm
  obtain ⟨g, hg, -, hvariant⟩ := exists_lookup_of_forall₂ hfst
    (List.Forall₂.flip (R := flip (ExactVariant B)) h) ((Json.lookup_eq_some_iff_mem hnd).mpr hmem)
  cases payload with
  | none =>
    obtain rfl := eq_str_of_name hs
    exact .name (hvariant ▸ hg)
  | some payload =>
    obtain ⟨c, rfl, hc⟩ := exists_eq_singleton hnames hs
    exact .payload hg (hvariant c (hnames.member (i := 0) rfl)
      (Json.natural_obj.mp hnatural _ List.mem_cons_self) hc (htexts.payload hg))

/-- A variant without payload is written plain, in any layout. -/
theorem plain_unit {f : Json → Json} (hf : Json.Layout f) {forms : List (String × Option Form)}
    (name : String) : Plain (.enum forms) (f (.str name)) := by
  rw [hf.str]
  exact .name

/-- **A variant with a payload is written plain**, in any layout, where the
payload is. -/
theorem plain_newtype {f : Json → Json} (hf : Json.Layout f) {forms : List (String × Option Form)}
    {name : String} {form : Form} (hform : forms.lookup name = some (some form)) {j : Json}
    (h : Plain form (f j)) : Plain (.enum forms) (f (.obj [(name, j)])) := by
  rw [layout_obj_singleton hf]
  exact .payload hform h

section UnitEnum

variable {α : Type} [UnitEnum α]

instance (priority := low) : Exact B α where
  plain hf v := plain_unit hf _
  accepts := by
    refine accepts_of_enumSchema ?_ ?_
    · unfold unitVariants
      rw [List.map_map]
      exact UnitEnum.nodup_names
    · unfold unitVariants
      rw [List.forall₂_map_left_iff, List.forall₂_map_right_iff]
      exact List.forall₂_same.mpr (fun p _ => exactVariant_unit p.fst)

end UnitEnum

/-! ## Scalars and containers -/

instance : Exact B String where
  plain _ _ := .scalar
  accepts {j} _ hnatural hschema _ := by
    cases j with
    | str s => exact .text rfl
    | number => cases hnatural
    | _ => cases Schema.type_singleton.mp hschema

instance : Exact B Bool where
  plain _ _ := .scalar
  accepts {j} _ hnatural hschema _ := by
    cases j with
    | bool b => exact .boolean
    | number => cases hnatural
    | _ => cases Schema.type_singleton.mp hschema

instance : Exact B UInt16 where
  plain _ _ := .scalar
  accepts {j} _ hnatural hschema _ := by
    simp only [Described.schema, Schema.allOf_cons] at hschema
    cases j with
    | nat n => exact .natural (Nat.lt_succ_of_le (by exact_mod_cast hschema.1 n rfl))
    | number => cases hnatural
    | _ => cases Schema.type_singleton.mp hschema.2.2.1

/-- **A checked text is read** where its schema and the condition together are
what its check asks for. -/
theorem accepts_of_text {α : Type} [CheckedText α] {s : Schema} {j : Json}
    (htype : s j → Schema.type [.string] j)
    (hcheck : ∀ t, s (.str t) → B (fun t => (CheckedText.accept (α := α) t).isSome) t →
      (CheckedText.accept (α := α) t).isSome = true) (hnatural : j.Natural) (hschema : s j)
    (htexts : TextsMeet B (Grammatical.grammar α) j) : Accepts (Grammatical.grammar α) j := by
  cases j with
  | str t => exact .text (hcheck t hschema htexts.text)
  | number => cases hnatural
  | _ => cases Schema.type_singleton.mp (htype hschema)

/-- A text or `null`. -/
instance : Exact B (Option String) where
  plain hf v := by
    cases v with
    | none => rw [show serialize (none : Option String) = .null from rfl, hf.null]; exact .absent
    | some v => exact .present .scalar
  accepts {j} _ hnatural hschema _ := by
    cases j with
    | null => exact .absent
    | str s => exact .present (.text rfl)
    | number => cases hnatural
    | _ =>
      obtain ⟨t, ht, htype⟩ := hschema
      rcases List.mem_cons.mp ht with rfl | ht
      · cases htype
      · obtain rfl := List.mem_singleton.mp ht
        cases htype
  isOptional _ := rfl

/-- Items are written plain where their values are. -/
theorem forall_plain_map {α : Type} [Serialize α] {f : Json → Json} {form : Form}
    (h : ∀ v : α, Plain form (f (serialize v))) (vs : List α) :
    ∀ x ∈ (vs.map serialize).map f, Plain form x := by
  intro x hx
  rw [List.map_map] at hx
  obtain ⟨v, -, rfl⟩ := List.mem_map.mp hx
  exact h v

/-- Only an array is of the type of arrays. -/
theorem exists_eq_arr {j : Json} (h : Schema.type [.array] j) : ∃ xs, j = .arr xs := by
  have htype := Schema.type_singleton.mp h
  cases j with
  | arr xs => exact ⟨xs, rfl⟩
  | number lexeme => exact absurd htype (Json.type_number_ne (by decide) lexeme)
  | _ => cases htype

section Containers

variable {α : Type} [Serialize α] [Deserialize α] [Described α] [Grammatical α] [Exact B α]

instance (priority := low) : Exact B (Option α) where
  plain hf v := by
    cases v with
    | none => rw [show serialize (none : Option α) = .null from rfl, hf.null]; exact .absent
    | some v => exact .present (Exact.plain B hf v)
  accepts {j} hnames hnatural hschema htexts := by
    cases j with
    | null => exact .absent
    | _ => exact .present (Exact.accepts hnames hnatural
        ((Schema.orNull_iff Json.noConfusion).mp hschema) htexts.optional)
  isOptional _ := rfl

/-- The items of a document that meet their schema are read. -/
theorem accepts_items {xs : List Json} (hnames : (Json.arr xs).DistinctNames)
    (hnatural : (Json.arr xs).Natural) (hschema : ∀ x ∈ xs, Described.schema α x)
    (htexts : TextsMeet B (.list (Grammatical.grammar α)) (.arr xs)) :
    Accepts (.list (Grammatical.grammar α)) (.arr xs) := by
  refine .list (fun x hx => ?_)
  obtain ⟨i, hi⟩ := List.mem_iff_getElem?.mp hx
  exact Exact.accepts (hnames.item hi) (Json.natural_arr.mp hnatural x hx) (hschema x hx)
    (htexts.item hi)

instance : Exact B (List α) where
  plain hf vs := by
    rw [show serialize vs = .arr (vs.map serialize) from rfl, hf.arr]
    exact .list (forall_plain_map (Exact.plain B hf) vs)
  accepts {j} hnames hnatural hschema htexts := by
    simp only [Described.schema, Schema.array, Schema.allOf_cons] at hschema
    obtain ⟨xs, rfl⟩ := exists_eq_arr hschema.2.1
    exact accepts_items hnames hnatural (hschema.1 xs rfl) htexts

/-- **A set is written without repetition**, since two values that are written
the same, in any layout, are the same. -/
instance [LinearOrder α] [LawfulSerde α] : Exact B (OrderedSet α) where
  plain {f} hf vs := by
    rw [show serialize vs = .arr (vs.elems.map serialize) from rfl, hf.arr]
    refine .set (forall_plain_map (Exact.plain B hf) vs.elems) ?_
    rw [List.map_map, List.pairwise_map]
    refine vs.sorted.imp (fun {v w} hlt hsame => hlt.ne ?_)
    unfold Json.Same at hsame
    rw [Function.comp_apply, Function.comp_apply, Json.canonical_layout hf (LawfulSerde.iJson v),
      Json.canonical_layout hf (LawfulSerde.iJson w)] at hsame
    exact (serialize_layout_inj Json.layout_canonical).mp hsame
  accepts {j} hnames hnatural hschema htexts := by
    simp only [Described.schema, Schema.set, Schema.allOf_cons] at hschema
    obtain ⟨xs, rfl⟩ := exists_eq_arr hschema.2.1
    exact accepts_items hnames hnatural (hschema.1 xs rfl) htexts

end Containers

end Serde
