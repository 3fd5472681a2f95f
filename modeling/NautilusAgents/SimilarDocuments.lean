import NautilusAgents.ExactSchema

/-!
# Documents of one value

A derived deserializer reads one value from many documents. The members of a
struct may come in any order, or without their names; an optional one may be
`null` or not be there at all; a set may be listed in any order, with
repetition; and a variant without payload may be a name, or an object that holds
`null` under the name. Two documents of a form that differ in these ways only
are **similar** (`Serde.Similar`).

That is all that is forgotten. Where both documents are read, they are read as
one value just when they are similar (`Serde.Discerning`), and a document that
is read is similar to the one its value is written as. Structs, enums and
containers discern what their parts do, so that in the end it rests on the
scalars: each is written in one way only.
-/

namespace Serde

/-- What is found under a name, where nothing counts as `null`. -/
def foundOrNull (found : String → Option Json) (name : String) : Json := (found name).getD .null

/-- **Similar documents** of a form: they differ in the order of members and
elements, in what is left out or repeated, and in how variants without payload
are written, at every depth. -/
inductive Similar : Form → Json → Json → Prop where
  | scalar {j : Json} : Similar .scalar j j
  | absent {form : Form} : Similar (.optional form) .null .null
  | present {form : Form} {j j' : Json} (hj : j ≠ .null) (hj' : j' ≠ .null)
      (h : Similar form j j') : Similar (.optional form) j j'
  | list {item : Form} {xs ys : List Json} (hlength : xs.length = ys.length)
      (h : ∀ (i : ℕ) (x y : Json), xs[i]? = some x → ys[i]? = some y → Similar item x y) :
      Similar (.list item) (.arr xs) (.arr ys)
  | set {item : Form} {xs ys : List Json} (there back : Json → Json)
      (hthere : ∀ x ∈ xs, there x ∈ ys) (h : ∀ x ∈ xs, Similar item x (there x))
      (hback : ∀ y ∈ ys, back y ∈ xs) (h' : ∀ y ∈ ys, Similar item (back y) y) :
      Similar (.set item) (.arr xs) (.arr ys)
  | struct {fields : List (String × Form)} {j j' : Json} {found found' : String → Option Json}
      (hfound : structFields (fields.map Prod.fst) j = some found)
      (hfound' : structFields (fields.map Prod.fst) j' = some found')
      (h : ∀ field ∈ fields,
        Similar field.snd (foundOrNull found field.fst) (foundOrNull found' field.fst)) :
      Similar (.struct fields) j j'
  | name {variants : List (String × Option Form)} {j j' : Json} {name : String}
      {c c' : Option Json} (hname : variants.lookup name = some none)
      (hj : variant j = some (name, c)) (hj' : variant j' = some (name, c')) :
      Similar (.enum variants) j j'
  | payload {variants : List (String × Option Form)} {j j' : Json} {name : String}
      {form : Form} {c c' : Json} (hform : variants.lookup name = some (some form))
      (hj : variant j = some (name, some c)) (hj' : variant j' = some (name, some c'))
      (h : Similar form c c') : Similar (.enum variants) j j'

/-! ## Form by form -/

theorem similar_scalar_iff {j j' : Json} : Similar .scalar j j' ↔ j = j' :=
  ⟨fun | .scalar => rfl, fun | rfl => .scalar⟩

/-- Of optional documents, those that are there are compared. -/
theorem similar_optional_iff {form : Form} {j j' : Json} (hj : j ≠ .null) (hj' : j' ≠ .null) :
    Similar (.optional form) j j' ↔ Similar form j j' := by
  refine ⟨fun h => ?_, .present hj hj'⟩
  cases h with
  | absent => exact absurd rfl hj
  | present _ _ h => exact h

theorem similar_list_iff {item : Form} {xs ys : List Json} :
    Similar (.list item) (.arr xs) (.arr ys) ↔ List.Forall₂ (Similar item) xs ys := by
  rw [List.forall₂_iff_get]
  constructor
  · intro h
    cases h with
    | list hlength h =>
      refine ⟨hlength, fun i hx hy => h i _ _ ?_ ?_⟩
      · exact List.getElem?_eq_getElem hx
      · exact List.getElem?_eq_getElem hy
  · rintro ⟨hlength, h⟩
    refine .list hlength (fun i x y hx hy => ?_)
    obtain ⟨hxi, rfl⟩ := List.getElem?_eq_some_iff.mp hx
    obtain ⟨hyi, rfl⟩ := List.getElem?_eq_some_iff.mp hy
    exact h i hxi hyi

/-- Each element of either set has one like it in the other. -/
theorem similar_set_iff {item : Form} {xs ys : List Json} :
    Similar (.set item) (.arr xs) (.arr ys) ↔
      (∀ x ∈ xs, ∃ y ∈ ys, Similar item x y) ∧ ∀ y ∈ ys, ∃ x ∈ xs, Similar item x y := by
  constructor
  · intro h
    cases h with
    | set there back hthere h hback h' =>
      exact ⟨fun x hx => ⟨there x, hthere x hx, h x hx⟩,
        fun y hy => ⟨back y, hback y hy, h' y hy⟩⟩
  · rintro ⟨h, h'⟩
    choose! there hthere using h
    choose! back hback using h'
    exact .set there back (fun x hx => (hthere x hx).1) (fun x hx => (hthere x hx).2)
      (fun y hy => (hback y hy).1) (fun y hy => (hback y hy).2)

/-- Structs are compared field by field. -/
theorem similar_struct_iff {fields : List (String × Form)} {j j' : Json}
    {found found' : String → Option Json}
    (hfound : structFields (fields.map Prod.fst) j = some found)
    (hfound' : structFields (fields.map Prod.fst) j' = some found') :
    Similar (.struct fields) j j' ↔ ∀ field ∈ fields,
      Similar field.snd (foundOrNull found field.fst) (foundOrNull found' field.fst) := by
  refine ⟨fun h => ?_, .struct hfound hfound'⟩
  cases h with
  | struct hread hread' h =>
    obtain rfl := Option.some.inj (hfound.symm.trans hread)
    obtain rfl := Option.some.inj (hfound'.symm.trans hread')
    exact h

end Serde

open Serde

/-- **Types that discern their documents**: two documents are read as one value
only if they are similar, and similar ones are. -/
class Discerning (α : Type) [Deserialize α] [Described α] : Prop where
  /-- Documents that are read have the same value just when they are similar. -/
  eq_iff : ∀ {j j' : Json} {v v' : α}, deserialize j = some v → deserialize j' = some v' →
    (v = v' ↔ Similar (Described.form α) j j')
  /-- Where a missing member stands for a value, `null` does. -/
  missing : ∀ {v : α}, Deserialize.missing = some v → deserialize Json.null = some v := by
    intro v h
    cases h

namespace Serde

section Discerning

variable {α : Type} [Deserialize α] [Described α] [Discerning α]

/-- **A document is similar to the one its value is written as.** -/
theorem similar_serialize [Serialize α] [LawfulSerde α] {j : Json} {v : α}
    (h : deserialize j = some v) : Similar (Described.form α) j (serialize v) :=
  (Discerning.eq_iff h (deserialize_serialize v)).mp rfl

/-- **The documents of a value** are those that are accepted and similar to one
of them. -/
theorem deserialize_eq_iff_similar [Grammatical α] {j : Json} {v : α}
    (h : deserialize j = some v) (j' : Json) :
    deserialize j' = some v ↔
      Accepts (Grammatical.grammar α) j' ∧ Similar (Described.form α) j j' := by
  rw [← Grammatical.isSome_iff]
  constructor
  · intro h'
    exact ⟨by rw [h']; rfl, (Discerning.eq_iff h h').mp rfl⟩
  · rintro ⟨hsome, hsimilar⟩
    obtain ⟨v', h'⟩ := Option.isSome_iff_exists.mp hsome
    rw [h', (Discerning.eq_iff h h').mpr hsimilar]

end Discerning

/-! ## Scalars and containers -/

/-- **A scalar discerns its documents** where it has one each. -/
theorem discerning_scalar {α : Type} [Deserialize α] [Described α]
    (hform : Described.form α = .scalar)
    (hmissing : (Deserialize.missing : Option α) = none)
    (h : ∀ {j j' : Json} {v : α}, deserialize j = some v → deserialize j' = some v → j = j') :
    Discerning α where
  eq_iff {j j' v v'} hv hv' := by
    rw [hform, similar_scalar_iff]
    constructor
    · rintro rfl
      exact h hv hv'
    · rintro rfl
      exact Option.some.inj (hv.symm.trans hv')
  missing hv := by cases hmissing.symm.trans hv

/-- **A checked text** is discerned where it is kept as it was accepted. -/
theorem discerning_text {α : Type} [CheckedText α] [Described α]
    (hform : Described.form α = .scalar)
    (h : ∀ s (v : α), CheckedText.accept s = some v → CheckedText.asStr v = s) : Discerning α := by
  refine discerning_scalar hform rfl (fun {j j' v} hv hv' => ?_)
  cases j with
  | str s =>
    cases j' with
    | str s' => rw [← h s v hv, ← h s' v hv']
    | _ => cases hv'
  | _ => cases hv

instance : Discerning String := by
  refine discerning_scalar rfl rfl (fun {j j' v} hv hv' => ?_)
  cases j with
  | str s =>
    cases j' with
    | str s' => exact congrArg Json.str (Option.some.inj (hv.trans hv'.symm))
    | _ => cases hv'
  | _ => cases hv

instance : Discerning Bool := by
  refine discerning_scalar rfl rfl (fun {j j' v} hv hv' => ?_)
  cases j with
  | bool b =>
    cases j' with
    | bool b' => exact congrArg Json.bool (Option.some.inj (hv.trans hv'.symm))
    | _ => cases hv'
  | _ => cases hv

/-- A number that is read is the one it is read as. -/
theorem eq_nat_of_deserialize {j : Json} {v : UInt16} (h : deserialize j = some v) :
    j = .nat v.toNat := by
  cases j with
  | nat n =>
    have hread : (if n < 2 ^ 16 then some (UInt16.ofNat n) else none) = some v := h
    split_ifs at hread with hn
    rw [← Option.some.inj hread, UInt16.toNat_ofNat_of_lt' hn]
  | _ => cases h

instance : Discerning UInt16 :=
  discerning_scalar rfl rfl
    (fun hv hv' => (eq_nat_of_deserialize hv).trans (eq_nat_of_deserialize hv').symm)

section Containers

variable {α : Type} [Deserialize α]

/-- Of two optional values, either both are there or none is. -/
theorem optional_eq_iff {form : Form}
    (h : ∀ {j j' : Json} {v v' : α}, deserialize j = some v → deserialize j' = some v' →
      (v = v' ↔ Similar form j j')) {j j' : Json} {v v' : Option α}
    (hv : deserialize j = some v) (hv' : deserialize j' = some v') :
    v = v' ↔ Similar (.optional form) j j' := by
  have hread : ∀ {j : Json} {v : Option α}, deserialize j = some v →
      (j = .null ∧ v = none) ∨ (j ≠ .null ∧ ∃ w, deserialize j = some w ∧ v = some w) := by
    intro j v hv
    cases j with
    | null => exact .inl ⟨rfl, (Option.some.inj hv).symm⟩
    | _ =>
      obtain ⟨w, hw, hvw⟩ := Option.map_eq_some_iff.mp hv
      exact .inr ⟨Json.noConfusion, w, hw, hvw.symm⟩
  obtain ⟨rfl, rfl⟩ | ⟨hj, w, hw, rfl⟩ := hread hv <;>
    obtain ⟨rfl, rfl⟩ | ⟨hj', w', hw', rfl⟩ := hread hv'
  · exact iff_of_true rfl .absent
  · refine iff_of_false (fun hne => by cases hne) (fun hsimilar => ?_)
    cases hsimilar with
    | absent => exact hj' rfl
    | present hj => exact hj rfl
  · refine iff_of_false (fun hne => by cases hne) (fun hsimilar => ?_)
    cases hsimilar with
    | absent => exact hj rfl
    | present _ hj' => exact hj' rfl
  · rw [Option.some.injEq, similar_optional_iff hj hj']
    exact h hw hw'

instance : Discerning (Option String) where
  eq_iff := optional_eq_iff Discerning.eq_iff
  missing h := h

instance (priority := low) [Described α] [Discerning α] : Discerning (Option α) where
  eq_iff := optional_eq_iff Discerning.eq_iff
  missing h := h

theorem forall₂_of_mapM_eq_some {β γ : Type} {f : β → Option γ} {xs : List β} {vs : List γ}
    (h : xs.mapM f = some vs) : List.Forall₂ (fun x v => f x = some v) xs vs := by
  induction xs generalizing vs with
  | nil =>
    obtain rfl : [] = vs := Option.some.inj h
    exact .nil
  | cons x xs ih =>
    rw [List.mapM_cons] at h
    simp only [Option.bind_eq_bind, Option.bind_eq_some_iff] at h
    obtain ⟨v, hv, ws, hws, hvs⟩ := h
    obtain rfl : v :: ws = vs := Option.some.inj hvs
    exact .cons hv (ih hws)

variable [Described α] [Discerning α]

/-- Lists are compared item by item. -/
theorem list_eq_iff {xs ys : List Json} {vs ws : List α}
    (hvs : List.Forall₂ (fun x v => deserialize x = some v) xs vs)
    (hws : List.Forall₂ (fun y w => deserialize y = some w) ys ws) :
    vs = ws ↔ List.Forall₂ (Similar (Described.form α)) xs ys := by
  induction hvs generalizing ys ws with
  | nil =>
    cases hws with
    | nil => exact iff_of_true rfl .nil
    | cons => exact iff_of_false (fun h => by cases h) (fun h => by cases h)
  | cons hv _ ih =>
    cases hws with
    | nil => exact iff_of_false (fun h => by cases h) (fun h => by cases h)
    | cons hw hws =>
      rw [List.cons.injEq, List.forall₂_cons, Discerning.eq_iff hv hw, ih hws]

instance : Discerning (List α) where
  eq_iff {j j' v v'} h h' := by
    cases j with
    | arr xs =>
      cases j' with
      | arr ys =>
        exact (list_eq_iff (forall₂_of_mapM_eq_some h) (forall₂_of_mapM_eq_some h')).trans
          similar_list_iff.symm
      | _ => cases h'
    | _ => cases h

/-- The elements of one list are among those of another where its documents are
similar to some of the other's. -/
theorem forall_mem_iff {xs ys : List Json} {vs ws : List α}
    (hvs : List.Forall₂ (fun x v => deserialize x = some v) xs vs)
    (hws : List.Forall₂ (fun y w => deserialize y = some w) ys ws) :
    (∀ v ∈ vs, v ∈ ws) ↔ ∀ x ∈ xs, ∃ y ∈ ys, Similar (Described.form α) x y := by
  have hmem : ∀ {x : Json} {v : α}, deserialize x = some v →
      (v ∈ ws ↔ ∃ y ∈ ys, Similar (Described.form α) x y) := by
    intro x v hx
    induction hws with
    | nil => simp
    | cons hw _ ih =>
      rw [List.mem_cons, ih, Discerning.eq_iff hx hw]
      simp
  induction hvs with
  | nil => simp
  | cons hv _ ih =>
    rw [List.forall_mem_cons, List.forall_mem_cons]
    exact and_congr (hmem hv) ih

instance [LinearOrder α] : Discerning (OrderedSet α) where
  eq_iff {j j' v v'} h h' := by
    obtain ⟨vs, hvs, rfl⟩ := Option.map_eq_some_iff.mp h
    obtain ⟨ws, hws, rfl⟩ := Option.map_eq_some_iff.mp h'
    cases j with
    | arr xs =>
      cases j' with
      | arr ys =>
        have hxs := forall₂_of_mapM_eq_some hvs
        have hys := forall₂_of_mapM_eq_some hws
        have hback : (∀ w ∈ ws, w ∈ vs) ↔ ∀ y ∈ ys, ∃ x ∈ xs, Similar (Described.form α) x y := by
          refine (forall_mem_iff hys hxs).trans (forall₂_congr (fun y hy => exists_congr (fun x =>
            and_congr_right (fun hx => ?_))))
          obtain ⟨v, hv⟩ := forall_mem_of_mapM_eq_some hvs x hx
          obtain ⟨w, hw⟩ := forall_mem_of_mapM_eq_some hws y hy
          rw [← Discerning.eq_iff hw hv, ← Discerning.eq_iff hv hw, eq_comm]
        show OrderedSet.ofList vs = OrderedSet.ofList ws ↔ Similar (.set _) (.arr xs) (.arr ys)
        rw [OrderedSet.ofList_eq_iff, similar_set_iff, ← forall_mem_iff hxs hys, ← hback]
      | _ => cases hws
    | _ => cases hvs

end Containers

/-! ## Structs -/

/-- **The fields of a struct discern the members found**, each those of its
own. -/
class DiscerningFields (β : Type) [Fields β] [DescribedFields β] : Prop where
  /-- Fields that are read are the same just when the members found are similar. -/
  eq_iff : ∀ names found found' (t t' : β),
    Fields.read names found = some t → Fields.read names found' = some t' →
      (t = t' ↔ ∀ field ∈ DescribedFields.forms β names,
        Similar field.snd (foundOrNull found field.fst) (foundOrNull found' field.fst))

/-- No field. -/
instance : DiscerningFields Unit where
  eq_iff _ _ _ _ _ _ _ := iff_of_true rfl (fun _ hfield => absurd hfield List.not_mem_nil)

/-- A field is read off what is found for it, or off `null`. -/
theorem deserialize_foundOrNull {α : Type} [Deserialize α] [Described α] [Discerning α]
    {found : String → Option Json} {name : String} {v : α} (h : field found name = some v) :
    deserialize (foundOrNull found name) = some v := by
  unfold field at h
  unfold foundOrNull
  cases hname : found name with
  | none =>
    rw [hname] at h
    exact Discerning.missing h
  | some j =>
    rw [hname] at h
    exact h

/-- One field and the rest. -/
instance DiscerningFields.pair {α β : Type} {_ : Serialize α} {_ : Deserialize α}
    {_ : LawfulSerde α} {_ : Strict α} {_ : Fields β} [Described α] [Discerning α]
    [DescribedFields β] [DiscerningFields β] : DiscerningFields (α × β) where
  eq_iff names found found' t t' h h' := by
    cases names with
    | nil => cases h
    | cons name names =>
      simp only [Fields.read, Option.bind_eq_bind, Option.bind_eq_some_iff] at h h'
      obtain ⟨v, hv, rest, hrest, ht⟩ := h
      obtain ⟨v', hv', rest', hrest', ht'⟩ := h'
      obtain rfl : (v, rest) = t := Option.some.inj ht
      obtain rfl : (v', rest') = t' := Option.some.inj ht'
      show (v, rest) = (v', rest') ↔ ∀ field ∈ (name, Described.form α) :: _, _
      rw [Prod.mk.injEq, List.forall_mem_cons,
        Discerning.eq_iff (deserialize_foundOrNull hv) (deserialize_foundOrNull hv'),
        DiscerningFields.eq_iff names found found' rest rest' hrest hrest']

/-- **A struct discerns its documents** where its fields do and it is made of
nothing else. -/
theorem discerning_struct {α : Type} [Struct α] [DescribedFields (Struct.Tuple α)]
    (hfields : DiscerningFields (Struct.Tuple α))
    (hfaithful : ∀ t, Struct.toTuple (Struct.ofTuple t : α) = t) : Discerning α where
  eq_iff {j j' v v'} h h' := by
    obtain ⟨found, hfound, hread⟩ := Option.bind_eq_some_iff.mp h
    obtain ⟨found', hfound', hread'⟩ := Option.bind_eq_some_iff.mp h'
    obtain ⟨t, ht, rfl⟩ := Option.map_eq_some_iff.mp hread
    obtain ⟨t', ht', rfl⟩ := Option.map_eq_some_iff.mp hread'
    have hnames : (DescribedFields.forms (Struct.Tuple α) (Struct.names α)).map Prod.fst
        = Struct.names α := by
      have hsame := map_fst_eq_of_forall₂ (fun _ _ hpq => hpq.1)
        (DescribedFields.accepts_iff _ _ t ht)
      exact hsame.symm.trans (DescribedFields.properties_names _ Struct.length_names)
    have hofTuple : (Struct.ofTuple t : α) = Struct.ofTuple t' ↔ t = t' := by
      refine ⟨fun heq => ?_, fun heq => by rw [heq]⟩
      rw [← hfaithful t, heq, hfaithful t']
    rw [hofTuple, hfields.eq_iff _ _ _ t t' ht ht']
    exact (similar_struct_iff (by rw [hnames]; exact hfound) (by rw [hnames]; exact hfound')).symm

/-! ## Enums -/

/-- The reader of a variant and the form of its payload. What it reads carries
the tag of the variant, and tells the payloads apart. -/
def DiscerningVariant {α : Type} (tag : α → String) (reader : String × (Option Json → Option α))
    (variant : String × Option Form) : Prop :=
  reader.fst = variant.fst ∧
    (∀ c v, reader.snd c = some v → tag v = reader.fst) ∧
    match variant.snd with
    | none => ∀ c c' v v', reader.snd c = some v → reader.snd c' = some v' → v = v'
    | some form => ∀ c c' v v', reader.snd c = some v → reader.snd c' = some v' →
        ∃ d d', c = some d ∧ c' = some d' ∧ (v = v' ↔ Similar form d d')

theorem discerningVariant_unit {α : Type} {tag : α → String} {name : String} {v : α}
    (htag : tag v = name) : DiscerningVariant tag (name, unitVariant v) (name, none) := by
  have hread : ∀ c w, unitVariant v c = some w → v = w := by
    intro c w h
    unfold unitVariant at h
    split at h
    · exact Option.some.inj h
    · exact Option.some.inj h
    · cases h
  refine ⟨rfl, fun c w h => ?_, fun c c' w w' h h' => ?_⟩
  · rw [← hread c w h]
    exact htag
  · rw [← hread c w h, ← hread c' w' h']

theorem discerningVariant_newtype {α β : Type} [Deserialize α] [Described α] [Discerning α]
    {tag : β → String} {name : String} {make : α → β} (hmake : Function.Injective make)
    (htag : ∀ v, tag (make v) = name) :
    DiscerningVariant tag (name, newtypeVariant make) (name, some (Described.form α)) := by
  refine ⟨rfl, fun c w h => ?_, fun c c' w w' h h' => ?_⟩
  · obtain ⟨d, rfl, hd⟩ := Option.bind_eq_some_iff.mp h
    obtain ⟨v, -, rfl⟩ := Option.map_eq_some_iff.mp hd
    exact htag v
  · obtain ⟨d, rfl, hd⟩ := Option.bind_eq_some_iff.mp h
    obtain ⟨d', rfl, hd'⟩ := Option.bind_eq_some_iff.mp h'
    obtain ⟨v, hv, rfl⟩ := Option.map_eq_some_iff.mp hd
    obtain ⟨v', hv', rfl⟩ := Option.map_eq_some_iff.mp hd'
    exact ⟨d, d', rfl, rfl, hmake.eq_iff.trans (Discerning.eq_iff hv hv')⟩

/-- What a reader of an enum has read: the document names a variant, and its
reader has read the payload. -/
theorem exists_variant_of_deserializeEnum {α : Type}
    {table : List (String × (Option Json → Option α))} {j : Json} {v : α}
    (h : deserializeEnum table j = some v) :
    ∃ name c read, variant j = some (name, c) ∧ table.lookup name = some read
      ∧ read c = some v := by
  rw [deserializeEnum] at h
  simp only [Option.bind_eq_bind, Option.bind_eq_some_iff] at h
  obtain ⟨⟨name, c⟩, hvariant, read, hread, hv⟩ := h
  exact ⟨name, c, read, hvariant, hread, hv⟩

/-- **An enum discerns its documents** where its variants do, and are told apart
by a tag. -/
theorem enum_eq_iff {α : Type} {tag : α → String}
    {table : List (String × (Option Json → Option α))} {variants : List (String × Option Form)}
    (h : List.Forall₂ (DiscerningVariant tag) table variants)
    {j j' : Json} {v v' : α} (hv : deserializeEnum table j = some v)
    (hv' : deserializeEnum table j' = some v') : v = v' ↔ Similar (.enum variants) j j' := by
  obtain ⟨name, c, read, hj, hread, hc⟩ := exists_variant_of_deserializeEnum hv
  obtain ⟨name', c', read', hj', hread', hc'⟩ := exists_variant_of_deserializeEnum hv'
  have hvariant : ∀ {name read}, table.lookup name = some read → ∃ form,
      variants.lookup name = some form ∧ DiscerningVariant tag (name, read) (name, form) :=
    fun hlookup => exists_lookup_of_forall₂ (fun _ _ hpq => hpq.1.symm) h.flip hlookup
  obtain ⟨form, hform, -, htag, hpayload⟩ := hvariant hread
  obtain ⟨-, -, -, htag', -⟩ := hvariant hread'
  by_cases hname : name = name'
  · subst hname
    obtain rfl := Option.some.inj (hread.symm.trans hread')
    cases form with
    | none => exact iff_of_true (hpayload c c' v v' hc hc') (.name hform hj hj')
    | some form =>
      obtain ⟨d, d', rfl, rfl, hsimilar⟩ := hpayload c c' v v' hc hc'
      rw [hsimilar]
      refine ⟨.payload hform hj hj', fun hpayloads => ?_⟩
      cases hpayloads with
      | name hunit hd _ =>
        obtain ⟨rfl, -⟩ := Prod.mk.inj (Option.some.inj (hj.symm.trans hd))
        cases hform.symm.trans hunit
      | payload hother hd hd' hpayloads =>
        obtain ⟨rfl, hsame⟩ := Prod.mk.inj (Option.some.inj (hj.symm.trans hd))
        obtain ⟨-, hsame'⟩ := Prod.mk.inj (Option.some.inj (hj'.symm.trans hd'))
        obtain rfl := Option.some.inj hsame
        obtain rfl := Option.some.inj hsame'
        obtain rfl := Option.some.inj (Option.some.inj (hform.symm.trans hother))
        exact hpayloads
  · -- the tags of the two values are the names of the two variants
    refine iff_of_false (fun heq => hname ?_) (fun hsimilar => hname ?_)
    · exact (htag c v hc).symm.trans ((congrArg tag heq).trans (htag' c' v' hc'))
    · cases hsimilar with
      | name _ hd hd' | payload _ hd hd' _ =>
        obtain ⟨rfl, -⟩ := Prod.mk.inj (Option.some.inj (hj.symm.trans hd))
        exact (Prod.mk.inj (Option.some.inj (hj'.symm.trans hd'))).1.symm

/-- **An enum without payloads discerns its documents** where each of its
variants has the name it is listed under. -/
theorem discerning_unitEnum {α : Type} [UnitEnum α]
    (hname : ∀ p ∈ (UnitEnum.variants : List (String × α)), UnitEnum.name p.snd = p.fst) :
    Discerning α where
  eq_iff := by
    refine @enum_eq_iff α UnitEnum.name _ _ ?_
    unfold unitVariants unitTable
    rw [List.map_map, List.forall₂_map_left_iff, List.forall₂_map_right_iff]
    exact List.forall₂_same.mpr (fun p hp => discerningVariant_unit (hname p hp))

end Serde
