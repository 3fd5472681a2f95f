import NautilusAgents.Json
import NautilusAgents.OrderedSet

/-!
# Derived serializers and deserializers

What a derived implementation does with a document, as rules a type's own
pair is put together from. A struct is written as an object with its fields
in declaration order; it is read from an object that holds only declared
members, each at most once, or from an array of all the fields in order, and
a member that is missing stands for nothing unless the field is optional. An
enum is tagged from the outside: a variant without payload is its name, one
with a payload is an object whose only member carries the name.

Each rule comes with what it preserves. For the round trip
(`LawfulSerde.deserialize_layout`) the document may first be laid out in any
member order, so one statement covers the plain and the canonical text. For
strictness (`Serde.Conforms`) a `Shape` says which type is read at which place
of a document, and reading only ever succeeds on documents all of whose
objects, at every depth, hold declared members only; inserting another member
anywhere therefore makes reading fail
(`Serde.deserialize_insertAt_eq_none`).
-/

/-- Types with a derived serializer. -/
class Serialize (α : Type) where
  /-- The document a value is written as. -/
  serialize : α → Json

/-- Types with a deserializer. -/
class Deserialize (α : Type) where
  /-- The value a document is read as, where it is read. -/
  deserialize : Json → Option α
  /-- What a missing member stands for: nothing, unless it is optional. -/
  missing : Option α := none

export Serialize (serialize)
export Deserialize (deserialize)

/-- **Reading undoes writing, in any layout.** -/
class LawfulSerde (α : Type) [Serialize α] [Deserialize α] : Prop where
  /-- A written document repeats no name and writes natural numbers only. -/
  iJson : ∀ v : α, (serialize v).IJson
  /-- A written value is read back from every layout of its document. -/
  deserialize_layout : ∀ {f : Json → Json}, Json.Layout f → ∀ v : α,
    deserialize (f (serialize v)) = some v

attribute [simp] LawfulSerde.iJson

/-- **Reading undoes writing.** -/
theorem deserialize_serialize {α : Type} [Serialize α] [Deserialize α] [LawfulSerde α]
    (v : α) : deserialize (serialize v) = some v :=
  LawfulSerde.deserialize_layout Json.layout_id v

/-- **A written document determines the value**, in whatever layout both are
compared. -/
theorem serialize_layout_inj {α : Type} [Serialize α] [Deserialize α] [LawfulSerde α]
    {f : Json → Json} (hf : Json.Layout f) {v w : α} :
    f (serialize v) = f (serialize w) ↔ v = w := by
  constructor
  · intro h
    have hread := congrArg (deserialize (α := α)) h
    rwa [LawfulSerde.deserialize_layout hf, LawfulSerde.deserialize_layout hf,
      Option.some.injEq] at hread
  · rintro rfl
    rfl

/-- Types whose deserializer refuses `null`, so that an optional value of the
type can be told from none. -/
class RejectsNull (α : Type) [Deserialize α] : Prop where
  /-- The null document is not read. -/
  deserialize_null : deserialize (α := α) .null = none

/-- **Checked text**: a type whose values are texts that its parser has
accepted. It is written as the text and read through the parser. -/
class CheckedText (α : Type) where
  /-- The text of a value. -/
  asStr : α → String
  /-- The value of a text, where it is accepted. -/
  accept : String → Option α
  /-- The text of a value is accepted as that value. -/
  accept_asStr : ∀ v : α, accept (asStr v) = some v

section CheckedText

variable {α : Type} [CheckedText α]

instance (priority := low) : Serialize α := ⟨fun v => .str (CheckedText.asStr v)⟩

instance (priority := low) : Deserialize α where
  deserialize
    | .str s => CheckedText.accept s
    | _ => none

instance (priority := low) : LawfulSerde α where
  iJson _ := .str _
  deserialize_layout hf v := by
    show deserialize (_ : Json) = _
    rw [show serialize v = .str (CheckedText.asStr v) from rfl, hf.str]
    exact CheckedText.accept_asStr v

instance (priority := low) : RejectsNull α := ⟨rfl⟩

end CheckedText

namespace Serde

/-! ## Structs -/

/-- **The fields of a struct by name.** An object may hold declared members
only, each once; an array holds all the fields in order. -/
def structFields (names : List String) : Json → Option (String → Option Json)
  | .obj ms =>
    if (∀ m ∈ ms, m.fst ∈ names) ∧ (ms.map Prod.fst).Nodup then
      some (fun name => ms.lookup name)
    else none
  | .arr items =>
    if items.length = names.length then some (fun name => (names.zip items).lookup name)
    else none
  | _ => none

/-- One field of a struct: read where it is present, and otherwise what a
missing member of its type stands for. -/
def field {α : Type} [Deserialize α] (fields : String → Option Json) (name : String) :
    Option α :=
  match fields name with
  | some j => deserialize j
  | none => Deserialize.missing

/-- The fields of a written struct are found in every layout of it. -/
theorem structFields_layout {f : Json → Json} (hf : Json.Layout f)
    {ms : List (String × Json)} {names : List String} (hnames : ms.map Prod.fst = names)
    (hnd : names.Nodup) :
    structFields names (f (.obj ms)) = some (fun name => (ms.lookup name).map f) := by
  subst hnames
  obtain ⟨ms', heq, hperm⟩ := hf.obj ms
  have hkeys : (ms'.map Prod.fst).Perm (ms.map Prod.fst) := by
    have := hperm.map Prod.fst
    rwa [List.map_map] at this
  have hmem : ∀ m ∈ ms', m.fst ∈ ms.map Prod.fst := fun m hm =>
    hkeys.mem_iff.mp (List.mem_map_of_mem hm)
  rw [heq, structFields, if_pos ⟨hmem, hkeys.nodup_iff.mpr hnd⟩]
  refine congrArg some (funext (fun name => ?_))
  have := hf.member hnd name
  rwa [heq] at this

/-! ## Enums -/

/-- **The variant a document names**, with its payload where it is written as
the only member of an object. -/
def variant : Json → Option (String × Option Json)
  | .str name => some (name, none)
  | .obj [(name, payload)] => some (name, some payload)
  | _ => none

/-- A variant without payload: its name alone, or with a `null`. -/
def unitVariant {α : Type} (v : α) : Option Json → Option α
  | none => some v
  | some .null => some v
  | some _ => none

/-- A variant with a payload, which must be there. -/
def newtypeVariant {α β : Type} [Deserialize α] (make : α → β) (payload : Option Json) :
    Option β :=
  payload.bind (fun j => (deserialize j).map make)

/-- **Read an enum**: a table gives each declared name the reader of its
payload, and any other name is refused. -/
def deserializeEnum {α : Type} (table : List (String × (Option Json → Option α)))
    (j : Json) : Option α := do
  let (name, payload) ← variant j
  let read ← table.lookup name
  read payload

/-- A variant name is found in every layout of it. -/
theorem variant_layout_str {f : Json → Json} (hf : Json.Layout f) (name : String) :
    variant (f (.str name)) = some (name, none) := by
  rw [hf.str]
  rfl

/-- A layout keeps an object of one member and lays its value out. -/
theorem layout_obj_singleton {f : Json → Json} (hf : Json.Layout f) (name : String)
    (j : Json) : f (.obj [(name, j)]) = .obj [(name, f j)] := by
  obtain ⟨ms, heq, hperm⟩ := hf.obj [(name, j)]
  rw [heq, List.perm_singleton.mp hperm]

/-! ## Scalars and containers -/

instance : Serialize String := ⟨.str⟩

instance : Deserialize String where
  deserialize
    | .str s => some s
    | _ => none

instance : LawfulSerde String where
  iJson _ := .str _
  deserialize_layout hf v := by
    show deserialize (_ : Json) = _
    rw [serialize, instSerializeString, hf.str]
    rfl

instance : RejectsNull String := ⟨rfl⟩

instance : Serialize Bool := ⟨.bool⟩

instance : Deserialize Bool where
  deserialize
    | .bool b => some b
    | _ => none

instance : LawfulSerde Bool where
  iJson _ := .bool _
  deserialize_layout hf v := by
    rw [serialize, instSerializeBool, hf.bool]
    rfl

/-- A 16-bit unsigned integer is a JSON number. -/
instance : Serialize UInt16 := ⟨fun n => .nat n.toNat⟩

instance : Deserialize UInt16 where
  deserialize
    | .nat n => if n < 2 ^ 16 then some (UInt16.ofNat n) else none
    | _ => none

instance : LawfulSerde UInt16 where
  iJson v := .nat (by have := v.toNat_lt; omega)
  deserialize_layout hf v := by
    rw [serialize, instSerializeUInt16]
    simp only [hf.nat]
    show (if v.toNat < 2 ^ 16 then some (UInt16.ofNat v.toNat) else none) = some v
    rw [if_pos v.toNat_lt, UInt16.ofNat_toNat]

section Containers

variable {α : Type}

instance [Serialize α] : Serialize (Option α) where
  serialize
    | none => .null
    | some v => serialize v

instance [Deserialize α] : Deserialize (Option α) where
  deserialize
    | .null => some none
    | j => (deserialize j).map some
  missing := some none

/-- A document other than `null` is read as a value that is there. -/
theorem deserialize_option [Deserialize α] [RejectsNull α] {j : Json} {v : α}
    (h : deserialize j = some v) : deserialize (α := Option α) j = some (some v) := by
  cases j with
  | null => rw [RejectsNull.deserialize_null] at h; cases h
  | _ => exact congrArg (Option.map some) h

instance [Serialize α] [Deserialize α] [LawfulSerde α] [RejectsNull α] :
    LawfulSerde (Option α) where
  iJson v := by
    cases v with
    | none => exact .null
    | some v => exact LawfulSerde.iJson v
  deserialize_layout hf v := by
    cases v with
    | none =>
      show deserialize (_ : Json) = _
      rw [show serialize (none : Option α) = .null from rfl, hf.null]
      rfl
    | some v => exact deserialize_option (LawfulSerde.deserialize_layout hf v)

instance [Serialize α] : Serialize (List α) := ⟨fun vs => .arr (vs.map serialize)⟩

instance [Deserialize α] : Deserialize (List α) where
  deserialize
    | .arr items => items.mapM deserialize
    | _ => none

theorem mapM_deserialize_layout [Serialize α] [Deserialize α] [LawfulSerde α]
    {f : Json → Json} (hf : Json.Layout f) (vs : List α) :
    ((vs.map serialize).map f).mapM (deserialize (α := α)) = some vs := by
  induction vs with
  | nil => rfl
  | cons v vs ih =>
    rw [List.map_cons, List.map_cons, List.mapM_cons, ih,
      LawfulSerde.deserialize_layout hf v]
    rfl

instance [Serialize α] [Deserialize α] [LawfulSerde α] : LawfulSerde (List α) where
  iJson vs := by
    show Json.IJson (.arr (vs.map serialize))
    rw [Json.iJson_arr]
    intro x hx
    obtain ⟨v, -, rfl⟩ := List.mem_map.mp hx
    exact LawfulSerde.iJson v
  deserialize_layout hf vs := by
    rw [show serialize vs = .arr (vs.map serialize) from rfl, hf.arr]
    exact mapM_deserialize_layout hf vs

/-- An ordered set is written as the array of its elements, in order. -/
instance [LinearOrder α] [Serialize α] : Serialize (OrderedSet α) :=
  ⟨fun s => serialize s.elems⟩

/-- An ordered set is read by inserting the elements of an array one by
one. -/
instance [LinearOrder α] [Deserialize α] : Deserialize (OrderedSet α) where
  deserialize j := (deserialize (α := List α) j).map OrderedSet.ofList

instance [LinearOrder α] [Serialize α] [Deserialize α] [LawfulSerde α] :
    LawfulSerde (OrderedSet α) where
  iJson s := LawfulSerde.iJson s.elems
  deserialize_layout hf s := by
    show (deserialize (α := List α) _).map OrderedSet.ofList = some s
    rw [show serialize s = serialize s.elems from rfl,
      LawfulSerde.deserialize_layout hf s.elems, Option.map_some, OrderedSet.ofList_elems]

end Containers

/-! ## Which type is read at which place -/

/-- **The shape of a deserializer**: the members each type it goes through
declares, and the shape read below each of them. -/
inductive Shape where
  /-- A scalar. -/
  | leaf
  /-- An array of items of one shape. -/
  | seq (item : Shape)
  /-- A struct: its fields in declaration order. -/
  | struct (fields : List (String × Shape))
  /-- An enum: its variants, a variant without payload over a leaf. -/
  | enum (variants : List (String × Shape))

namespace Shape

/-- The member names the type declares. -/
def declared : Shape → List String
  | .struct fields => fields.map Prod.fst
  | .enum variants => variants.map Prod.fst
  | _ => []

/-- The shape read at a child of a document of this shape. -/
def child : Shape → Json → ℕ → Option Shape
  | .seq item, .arr _, _ => some item
  | .struct fields, .obj ms, i => ms[i]?.bind (fun m => fields.lookup m.fst)
  | .struct fields, .arr _, i => fields[i]?.map Prod.snd
  | .enum variants, .obj ms, i => ms[i]?.bind (fun m => variants.lookup m.fst)
  | _, _, _ => none

/-- The shape read at the end of a path. -/
def follow : Shape → Json → List ℕ → Option Shape
  | s, _, [] => some s
  | s, j, i :: path =>
    (j.child i).bind (fun c => (s.child j i).bind (fun s' => s'.follow c path))

mutual

/-- How deep a document of the shape can be. -/
def depth : Shape → ℕ
  | .leaf => 0
  | .seq item => item.depth + 1
  | .struct fields => depthMax fields + 1
  | .enum variants => depthMax variants + 1

/-- The deepest of some fields or variants. -/
def depthMax : List (String × Shape) → ℕ
  | [] => 0
  | (_, s) :: rest => max s.depth (depthMax rest)

end

theorem depth_le_depthMax {fields : List (String × Shape)} {f : String × Shape}
    (h : f ∈ fields) : f.snd.depth ≤ depthMax fields := by
  induction fields with
  | nil => cases h
  | cons g fields ih =>
    unfold depthMax
    rcases List.mem_cons.mp h with rfl | h
    · exact Nat.le_max_left _ _
    · exact (ih h).trans (Nat.le_max_right _ _)

/-- A child is read at a shallower shape. -/
theorem depth_child_lt {s s' : Shape} {j : Json} {i : ℕ} (h : s.child j i = some s') :
    s'.depth < s.depth := by
  unfold child at h
  split at h
  · rw [Option.some.injEq] at h
    subst h
    exact Nat.lt_succ_self _
  · obtain ⟨m, -, hs⟩ := Option.bind_eq_some_iff.mp h
    rw [depth]
    exact Nat.lt_succ_of_le (depth_le_depthMax (Json.mem_of_lookup_eq_some hs))
  · obtain ⟨f, hf, rfl⟩ := Option.map_eq_some_iff.mp h
    rw [depth]
    exact Nat.lt_succ_of_le (depth_le_depthMax (List.mem_of_getElem? hf))
  · obtain ⟨m, -, hs⟩ := Option.bind_eq_some_iff.mp h
    rw [depth]
    exact Nat.lt_succ_of_le (depth_le_depthMax (Json.mem_of_lookup_eq_some hs))
  · cases h

/-- A path along which shapes are read is no longer than the shape is deep. -/
theorem length_le_depth {s s' : Shape} {j : Json} {path : List ℕ}
    (h : s.follow j path = some s') : path.length ≤ s.depth := by
  induction path generalizing s j with
  | nil => exact Nat.zero_le _
  | cons i path ih =>
    simp only [follow, Option.bind_eq_some_iff] at h
    obtain ⟨c, -, t, ht, hfollow⟩ := h
    have hlen := ih hfollow
    have hlt := depth_child_lt ht
    rw [List.length_cons]
    omega

end Shape

/-- **Only declared members**: every object of the document, at every depth,
holds members the type read there declares, and every child is read at some
shape. -/
inductive Conforms : Shape → Json → Prop where
  | intro {s : Shape} {j : Json} (hmembers : ∀ m ∈ j.members, m.fst ∈ s.declared)
    (hshape : ∀ i c, j.child i = some c → (s.child j i).isSome)
    (hchild : ∀ i c s', j.child i = some c → s.child j i = some s' → Conforms s' c) :
    Conforms s j

/-- At every place of a conforming document the shape read there is declared,
and the document at the place conforms to it. -/
theorem Conforms.place {s : Shape} {j d : Json} {path : List ℕ} (h : Conforms s j)
    (hplace : j.place path = some d) :
    ∃ s', s.follow j path = some s' ∧ Conforms s' d := by
  induction path generalizing s j with
  | nil =>
    rw [Json.place_nil, Option.some.injEq] at hplace
    subst hplace
    exact ⟨s, rfl, h⟩
  | cons i path ih =>
    rw [Json.place_cons, Option.bind_eq_some_iff] at hplace
    obtain ⟨c, hc, hplace⟩ := hplace
    obtain ⟨-, hshape, hchild⟩ := h
    obtain ⟨s', hs'⟩ := Option.isSome_iff_exists.mp (hshape i c hc)
    obtain ⟨s'', hfollow, hconf⟩ := ih (hchild i c s' hc hs') hplace
    refine ⟨s'', ?_, hconf⟩
    unfold Shape.follow
    rw [hc, Option.bind_some, hs', Option.bind_some, hfollow]

/-- Inserting a member changes the object at its place, and neither the path
to it nor the shapes read along the path. -/
theorem insertAt_eq_some {n : ℕ} {m : String × Json} {path : List ℕ} {j j' : Json}
    (h : j.insertAt n m path = some j') :
    ∃ ms, j.place path = some (.obj ms) ∧
      j'.place path = some (.obj (ms.take n ++ m :: ms.drop n)) ∧
      ∀ s : Shape, s.follow j' path = s.follow j path := by
  induction path generalizing j j' with
  | nil =>
    cases j with
    | obj ms =>
      rw [Json.insertAt, Option.some.injEq] at h
      subst h
      exact ⟨ms, rfl, rfl, fun s => rfl⟩
    | _ => exact absurd h (by simp [Json.insertAt])
  | cons i path ih =>
    cases j with
    | obj ms =>
      simp only [Json.insertAt, Option.bind_eq_bind, Option.bind_eq_some_iff,
        Option.some.injEq] at h
      obtain ⟨⟨k, v⟩, hi, v', hv', rfl⟩ := h
      obtain ⟨ms', hplace, hplace', hfollow⟩ := ih hv'
      have hlt : i < ms.length := (List.getElem?_eq_some_iff.mp hi).1
      have hset : (ms.set i (k, v'))[i]? = some (k, v') := by
        rw [List.getElem?_set_self hlt]
      refine ⟨ms', ?_, ?_, fun s => ?_⟩
      · simp only [Json.place_cons, Json.child, hi, Option.map_some, Option.bind_some, hplace]
      · simp only [Json.place_cons, Json.child, hset, Option.map_some, Option.bind_some,
          hplace']
      · have hsame : s.child (.obj (ms.set i (k, v'))) i = s.child (.obj ms) i := by
          cases s <;> simp [Shape.child, hset, hi]
        simp only [Shape.follow, Json.child, hset, hi, Option.map_some, Option.bind_some, hsame]
        exact congrArg _ (funext fun s' => hfollow s')
    | arr items =>
      simp only [Json.insertAt, Option.bind_eq_bind, Option.bind_eq_some_iff,
        Option.some.injEq] at h
      obtain ⟨x, hi, x', hx', rfl⟩ := h
      obtain ⟨ms', hplace, hplace', hfollow⟩ := ih hx'
      have hlt : i < items.length := (List.getElem?_eq_some_iff.mp hi).1
      have hset : (items.set i x')[i]? = some x' := by
        rw [List.getElem?_set_self hlt]
      refine ⟨ms', ?_, ?_, fun s => ?_⟩
      · simp only [Json.place_cons, Json.child, hi, Option.bind_some, hplace]
      · simp only [Json.place_cons, Json.child, hset, Option.bind_some, hplace']
      · have hsame : s.child (.arr (items.set i x')) i = s.child (.arr items) i := by
          cases s <;> rfl
        simp only [Shape.follow, Json.child, hset, hi, Option.bind_some, hsame]
        exact congrArg _ (funext fun s' => hfollow s')
    | _ => exact absurd h (by simp [Json.insertAt])

/-- A scalar document conforms to every shape. -/
theorem conforms_of_child_eq_none {s : Shape} {j : Json} (hmembers : j.members = [])
    (hchild : ∀ i, j.child i = none) : Conforms s j := by
  refine .intro (fun m hm => ?_) (fun i c hc => ?_) (fun i c s' hc => ?_)
  · rw [hmembers] at hm
    cases hm
  · rw [hchild i] at hc
    cases hc
  · rw [hchild i] at hc
    cases hc

@[simp] theorem conforms_null (s : Shape) : Conforms s .null :=
  conforms_of_child_eq_none rfl (fun _ => rfl)

@[simp] theorem conforms_str (s : Shape) (t : String) : Conforms s (.str t) :=
  conforms_of_child_eq_none rfl (fun _ => rfl)

end Serde

/-- **Types with a strict deserializer**: what is read conforms to the
shape. -/
class Strict (α : Type) [Deserialize α] where
  /-- The members declared at each place. -/
  shape : Serde.Shape
  /-- Every document that is read holds declared members only. -/
  conforms : ∀ {j : Json} {v : α}, deserialize j = some v → Serde.Conforms shape j

namespace Serde

variable {α : Type}

/-- **No undeclared member at any level**: at every object of a document that
is read, a type is read whose declared names are the only ones there. -/
theorem declared_of_deserialize [Deserialize α] [Strict α] {j : Json} {v : α}
    (h : deserialize j = some v) {path : List ℕ} {ms : List (String × Json)}
    (hplace : j.place path = some (.obj ms)) :
    ∃ s, (Strict.shape α).follow j path = some s ∧ ∀ m ∈ ms, m.fst ∈ s.declared := by
  obtain ⟨s, hfollow, ⟨hmembers, -, -⟩⟩ := (Strict.conforms h).place hplace
  exact ⟨s, hfollow, hmembers⟩

/-- **Inserting an undeclared member makes reading fail**, at any object of a
document that was read. -/
theorem deserialize_insertAt_eq_none [Deserialize α] [Strict α] {j j' : Json} {n : ℕ}
    {m : String × Json} {path : List ℕ} (hinsert : j.insertAt n m path = some j') {s : Shape}
    (hfollow : (Strict.shape α).follow j path = some s) (hm : m.fst ∉ s.declared) :
    deserialize (α := α) j' = none := by
  obtain ⟨ms, hplace, hplace', hsame⟩ := insertAt_eq_some hinsert
  refine Option.eq_none_iff_forall_ne_some.mpr (fun w hw => hm ?_)
  obtain ⟨s', hfollow', hdecl⟩ := declared_of_deserialize hw hplace'
  rw [hsame, hfollow, Option.some.injEq] at hfollow'
  subst hfollow'
  exact hdecl m (List.mem_append_right _ List.mem_cons_self)

/-- A document that is read is no deeper than the shape of its type. -/
theorem depthLE_of_deserialize [Deserialize α] [Strict α] {j : Json} {v : α}
    (h : deserialize j = some v) : j.DepthLE (Strict.shape α).depth := by
  intro path d hd
  obtain ⟨s, hfollow, -⟩ := (Strict.conforms h).place hd
  exact Shape.length_le_depth hfollow

/-- A field that was read conforms to the shape of its type. -/
theorem conforms_field [Deserialize α] [Strict α] {fields : String → Option Json}
    {name : String} {v : α} (h : field fields name = some v) :
    ∀ c, fields name = some c → Conforms (Strict.shape α) c := by
  intro c hc
  rw [field, hc] at h
  exact Strict.conforms h

/-- **A struct conforms when its fields do.** Position by position, an array
is read as an object is name by name. -/
theorem conforms_struct {fields : List (String × Shape)} {j : Json}
    {found : String → Option Json} (hnd : (fields.map Prod.fst).Nodup)
    (hfound : structFields (fields.map Prod.fst) j = some found)
    (hfields : ∀ f ∈ fields, ∀ c, found f.fst = some c → Conforms f.snd c) :
    Conforms (.struct fields) j := by
  -- a declared name has a shape
  have hlookup : ∀ name ∈ fields.map Prod.fst, ∃ s, fields.lookup name = some s ∧
      (name, s) ∈ fields := by
    intro name hname
    obtain ⟨s, hs⟩ := Json.exists_lookup_eq_some hname
    exact ⟨s, hs, Json.mem_of_lookup_eq_some hs⟩
  cases j with
  | obj ms =>
    rw [structFields] at hfound
    split_ifs at hfound with hcond
    rw [Option.some.injEq] at hfound
    subst hfound
    have hmem : ∀ {i : ℕ} {m}, ms[i]? = some m → m ∈ ms := fun h => List.mem_of_getElem? h
    refine .intro hcond.1 (fun i c hc => ?_) (fun i c s' hc hs' => ?_)
    · rw [Json.child, Option.map_eq_some_iff] at hc
      obtain ⟨m, hm, rfl⟩ := hc
      obtain ⟨s, hs, -⟩ := hlookup m.fst (hcond.1 m (hmem hm))
      simp [Shape.child, hm, hs]
    · rw [Json.child, Option.map_eq_some_iff] at hc
      obtain ⟨m, hm, rfl⟩ := hc
      obtain ⟨s, hs, hin⟩ := hlookup m.fst (hcond.1 m (hmem hm))
      obtain rfl : s = s' := by simpa [Shape.child, hm, hs] using hs'
      refine hfields (m.fst, s) hin m.snd ?_
      exact (Json.lookup_eq_some_iff_mem hcond.2).mpr (hmem hm)
  | arr items =>
    rw [structFields] at hfound
    split_ifs at hfound with hlen
    rw [Option.some.injEq] at hfound
    subst hfound
    rw [List.length_map] at hlen
    have hget : ∀ {i : ℕ} {c : Json}, items[i]? = some c → ∃ f, fields[i]? = some f := by
      intro i c hc
      have hi : i < fields.length := hlen ▸ (List.getElem?_eq_some_iff.mp hc).1
      exact ⟨_, List.getElem?_eq_getElem hi⟩
    refine .intro (fun m hm => by cases hm) (fun i c hc => ?_) (fun i c s' hc hs' => ?_)
    · obtain ⟨f, hf⟩ := hget hc
      simp [Shape.child, hf]
    · obtain ⟨f, hf⟩ := hget hc
      obtain rfl : f.snd = s' := by simpa [Shape.child, hf] using hs'
      refine hfields f (List.mem_of_getElem? hf) c ?_
      -- the names are distinct, so the name of position `i` finds item `i`
      have hkeys : (((fields.map Prod.fst).zip items).map Prod.fst).Nodup := by
        rw [List.map_fst_zip (by rw [List.length_map]; exact hlen.ge)]
        exact hnd
      refine (Json.lookup_eq_some_iff_mem hkeys).mpr (List.mem_of_getElem? (i := i) ?_)
      rw [List.getElem?_zip_eq_some]
      exact ⟨by rw [List.getElem?_map, hf]; rfl, hc⟩
  | _ => exact absurd hfound (by simp [structFields])

/-- **An enum conforms when its payloads do.** -/
theorem conforms_enum {table : List (String × (Option Json → Option α))}
    {variants : List (String × Shape)} {j : Json} {v : α}
    (h : deserializeEnum table j = some v)
    (hvariants : List.Forall₂ (fun t s => t.fst = s.fst ∧
      ∀ c w, t.snd (some c) = some w → Conforms s.snd c) table variants) :
    Conforms (.enum variants) j := by
  rw [deserializeEnum] at h
  simp only [Option.bind_eq_bind, Option.bind_eq_some_iff] at h
  obtain ⟨⟨name, payload⟩, hvar, read, hread, hv⟩ := h
  -- the reader the table finds has its shape under the same name
  have hlookup : ∃ s, variants.lookup name = some s ∧
      ∀ c w, read (some c) = some w → Conforms s c := by
    clear hv
    induction hvariants with
    | nil => cases hread
    | @cons t s table variants hts _ ih =>
      rw [List.lookup_cons] at hread ⊢
      rw [← hts.1]
      cases hname : name == t.fst with
      | true =>
        simp only [hname, Option.some.injEq] at hread
        subst hread
        exact ⟨s.snd, rfl, hts.2⟩
      | false =>
        simp only [hname] at hread
        exact ih hread
  obtain ⟨s, hs, hconf⟩ := hlookup
  have hname : name ∈ variants.map Prod.fst :=
    List.mem_map_of_mem (Json.mem_of_lookup_eq_some hs)
  unfold variant at hvar
  split at hvar
  · exact conforms_str _ _
  · rename_i k c
    simp only [Option.some.injEq, Prod.mk.injEq] at hvar
    obtain ⟨rfl, rfl⟩ := hvar
    refine .intro (fun m hm => ?_) (fun i d hd => ?_) (fun i d s' hd hs' => ?_)
    · rw [Json.members, List.mem_singleton] at hm
      subst hm
      exact hname
    · obtain ⟨rfl, rfl⟩ : i = 0 ∧ c = d := by
        cases i <;> simp_all [Json.child]
      simp [Shape.child, hs]
    · obtain ⟨rfl, rfl⟩ : i = 0 ∧ c = d := by
        cases i <;> simp_all [Json.child]
      obtain rfl : s = s' := by simpa [Shape.child, hs] using hs'
      exact hconf c v hv
  · cases hvar

/-- A variant without payload accepts no payload but `null`. -/
theorem conforms_unitVariant {v : α} (s : Shape) :
    ∀ c w, unitVariant v (some c) = some w → Conforms s c := by
  intro c w h
  cases c with
  | null => exact conforms_null s
  | _ => cases h

/-- The payload of a variant conforms to the shape of its type. -/
theorem conforms_newtypeVariant {β : Type} [Deserialize α] [Strict α] (make : α → β) :
    ∀ c w, newtypeVariant make (some c) = some w → Conforms (Strict.shape α) c := by
  intro c w h
  rw [newtypeVariant, Option.bind_some, Option.map_eq_some_iff] at h
  obtain ⟨v, hv, -⟩ := h
  exact Strict.conforms hv

end Serde

instance : Strict String where
  shape := .leaf
  conforms {j} v h := by
    cases j with
    | str s => exact Serde.conforms_str _ _
    | _ => cases h

instance (priority := low) {α : Type} [CheckedText α] : Strict α where
  shape := .leaf
  conforms {j} v h := by
    cases j with
    | str s => exact Serde.conforms_str _ _
    | _ => cases h

instance : Strict Bool where
  shape := .leaf
  conforms {j} v h := by
    cases j with
    | bool b => exact Serde.conforms_of_child_eq_none rfl (fun _ => rfl)
    | _ => cases h

instance : Strict UInt16 where
  shape := .leaf
  conforms {j} v h := by
    cases j with
    | nat n => exact Serde.conforms_of_child_eq_none rfl (fun _ => rfl)
    | _ => cases h

/-- An optional value has the shape of its type: `null` holds no member. -/
instance {α : Type} [Deserialize α] [Strict α] : Strict (Option α) where
  shape := Strict.shape α
  conforms {j} v h := by
    have hmap : ∀ {o : Option α}, o.map some = some v → ∃ w, o = some w := by
      intro o ho
      obtain ⟨w, hw, -⟩ := Option.map_eq_some_iff.mp ho
      exact ⟨w, hw⟩
    cases j with
    | null => exact Serde.conforms_null _
    | _ =>
      obtain ⟨w, hw⟩ := hmap h
      exact Strict.conforms hw

/-- The items of an array that is read are read. -/
theorem forall_mem_of_mapM_eq_some {α β : Type} {f : α → Option β} {xs : List α}
    {ys : List β} (h : xs.mapM f = some ys) : ∀ x ∈ xs, ∃ y, f x = some y := by
  induction xs generalizing ys with
  | nil => simp
  | cons x xs ih =>
    rw [List.mapM_cons] at h
    simp only [Option.bind_eq_bind, Option.bind_eq_some_iff] at h
    obtain ⟨y, hy, ys, hys, -⟩ := h
    intro z hz
    rcases List.mem_cons.mp hz with rfl | hz
    · exact ⟨y, hy⟩
    · exact ih hys z hz

instance {α : Type} [Deserialize α] [Strict α] : Strict (List α) where
  shape := .seq (Strict.shape α)
  conforms {j} v h := by
    cases j with
    | arr items =>
      refine .intro (fun m hm => by cases hm) (fun i c _ => rfl) (fun i c s' hc hs' => ?_)
      obtain ⟨w, hw⟩ := forall_mem_of_mapM_eq_some h c (List.mem_of_getElem? hc)
      cases hs'
      exact Strict.conforms hw
    | _ => cases h

instance {α : Type} [LinearOrder α] [Deserialize α] [Strict α] : Strict (OrderedSet α) where
  shape := Strict.shape (List α)
  conforms {j} v h := by
    obtain ⟨w, hw, -⟩ := Option.map_eq_some_iff.mp h
    exact Strict.conforms hw
