import NautilusAgents.Derive

/-!
# The grammar of a type's documents

Which documents a derived deserializer reads, as a grammar of its own. A
`Serde.Grammar` says what is read at the root and at every place below it:
texts that a check accepts, bounded numbers, lists, structs with their fields,
enums with their variants. A type's deserializer reads exactly the documents of
its grammar (`Serde.Grammatical`), and the grammar is derived as the
deserializer is.

A grammar is what one argues with about a part of a document. The part at the
end of a path is read by some grammar (`Grammar.At`), and the document with
that part changed is read just when the changed part is, by the grammar at its
place (`Grammar.At.accepts_changeAt_iff`). Whatever is noticed at a place is
noticed at the root. Two changes are followed to the end: putting a document of
another kind in a place, which no grammar forgives (`Accepts.not_flip`), and
leaving a member out, which is forgiven exactly where the field is optional
(`exists_eraseMember`). Where these fields are is a finite list of the grammar,
whatever the document (`Grammar.optionalPlaces`).
-/

namespace Json

/-- **Change the document at the end of a path.** -/
def changeAt (f : Json → Json) : List ℕ → Json → Option Json
  | [], j => some (f j)
  | i :: path, .obj members => do
    let (k, v) ← members[i]?
    let v' ← changeAt f path v
    some (.obj (members.set i (k, v')))
  | i :: path, .arr items => do
    let x ← items[i]?
    let x' ← changeAt f path x
    some (.arr (items.set i x'))
  | _, _ => none

@[simp] theorem changeAt_nil (f : Json → Json) (j : Json) : changeAt f [] j = some (f j) := by
  cases j <;> rfl

/-- **A document of another kind**: a text where there was an object or an
array, and an object where there was a scalar. -/
def flip (name : String) : Json → Json
  | .obj _ => .str name
  | .arr _ => .str name
  | _ => .obj [(name, .bool true)]

theorem flip_ne_null (name : String) (j : Json) : flip name j ≠ .null := by
  cases j <;> exact fun h => by cases h

/-- **Leave a member out.** -/
def eraseMember (name : String) : Json → Json
  | .obj members => .obj (members.filter (fun m => m.fst ≠ name))
  | j => j

/-- No object of the document repeats a name. -/
def DistinctNames (j : Json) : Prop :=
  ∀ path ms, j.place path = some (.obj ms) → (ms.map Prod.fst).Nodup

theorem DistinctNames.child {j c : Json} (h : DistinctNames j) {i : ℕ} (hc : j.child i = some c) :
    DistinctNames c := by
  intro path ms hplace
  refine h (i :: path) ms ?_
  rw [Json.place_cons, hc]
  exact hplace

end Json

namespace Serde

/-- **What is read.** -/
inductive Grammar where
  /-- A text that a check accepts. -/
  | text (accepts : String → Bool)
  /-- A truth value. -/
  | boolean
  /-- A natural number below a bound. -/
  | natural (bound : ℕ)
  /-- The payload of a variant that has none: `null`. -/
  | unit
  /-- `null`, or what the grammar reads. -/
  | optional (g : Grammar)
  /-- A list. -/
  | list (item : Grammar)
  /-- A struct: its fields in declaration order. -/
  | struct (fields : List (String × Grammar))
  /-- An enum: its variants with their payloads. -/
  | enum (variants : List (String × Grammar))

namespace Grammar

/-- Whether a member of the grammar may be left out. -/
def isOptional : Grammar → Bool
  | .optional _ => true
  | _ => false

/-- **Whether a member may be left out** of an object that the grammar reads:
it stands for an optional field. -/
def mayOmit : Grammar → String → Bool
  | .struct fields, name => fields.all (fun f => decide (f.fst = name) → f.snd.isOptional)
  | .optional g, name => mayOmit g name
  | _, _ => false

mutual

/-- The names of fields and variants, at every depth. -/
def names : Grammar → List String
  | .optional g => names g
  | .list item => names item
  | .struct fields => namesOf fields
  | .enum variants => namesOf variants
  | _ => []

/-- The names of some fields or variants, and those below them. -/
def namesOf : List (String × Grammar) → List String
  | [] => []
  | (name, g) :: rest => name :: names g ++ namesOf rest

end

theorem mem_namesOf {fields : List (String × Grammar)} {name : String} {g : Grammar}
    (h : fields.lookup name = some g) : name ∈ namesOf fields ∧ g.names ⊆ namesOf fields := by
  have hmem := Json.mem_of_lookup_eq_some h
  clear h
  induction fields with
  | nil => cases hmem
  | cons f fields ih =>
    obtain ⟨n, r⟩ := f
    unfold namesOf
    rcases List.mem_cons.mp hmem with heq | hmem
    · cases heq
      exact ⟨List.mem_cons_self, fun x hx =>
        List.mem_cons_of_mem _ (List.mem_append_left _ hx)⟩
    · obtain ⟨hname, hsub⟩ := ih hmem
      exact ⟨List.mem_cons_of_mem _ (List.mem_append_right _ hname), fun x hx =>
        List.mem_cons_of_mem _ (List.mem_append_right _ (hsub hx))⟩

theorem mem_namesOf_of_mem {fields : List (String × Grammar)} {name : String}
    (h : name ∈ fields.map Prod.fst) : name ∈ namesOf fields := by
  obtain ⟨g, hg⟩ := Json.exists_lookup_eq_some h
  exact (mem_namesOf hg).1

end Grammar

/-- **The documents of a grammar.** -/
inductive Accepts : Grammar → Json → Prop where
  | text {accepts : String → Bool} {s : String} (h : accepts s = true) :
      Accepts (.text accepts) (.str s)
  | boolean {b : Bool} : Accepts .boolean (.bool b)
  | natural {bound n : ℕ} (h : n < bound) : Accepts (.natural bound) (.nat n)
  | unit : Accepts .unit .null
  | absent {g : Grammar} : Accepts (.optional g) .null
  | present {g : Grammar} {j : Json} (h : Accepts g j) : Accepts (.optional g) j
  | list {item : Grammar} {xs : List Json} (h : ∀ x ∈ xs, Accepts item x) :
      Accepts (.list item) (.arr xs)
  /-- Declared members only, each once, and those left out optional. -/
  | object {fields : List (String × Grammar)} {ms : List (String × Json)}
      (hdeclared : ∀ m ∈ ms, m.fst ∈ fields.map Prod.fst) (hnd : (ms.map Prod.fst).Nodup)
      (hread : ∀ m ∈ ms, ∀ g, fields.lookup m.fst = some g → Accepts g m.snd)
      (habsent : ∀ f ∈ fields, f.fst ∉ ms.map Prod.fst → f.snd.isOptional = true) :
      Accepts (.struct fields) (.obj ms)
  /-- All the fields in order. -/
  | tuple {fields : List (String × Grammar)} {xs : List Json} (hlen : xs.length = fields.length)
      (hread : ∀ (i : ℕ) (f : String × Grammar) (x : Json), fields[i]? = some f → xs[i]? = some x →
        Accepts f.snd x) :
      Accepts (.struct fields) (.arr xs)
  | name {variants : List (String × Grammar)} {name : String}
      (h : variants.lookup name = some .unit) : Accepts (.enum variants) (.str name)
  | payload {variants : List (String × Grammar)} {name : String} {g : Grammar} {j : Json}
      (hg : variants.lookup name = some g) (h : Accepts g j) :
      Accepts (.enum variants) (.obj [(name, j)])

theorem accepts_optional_iff {g : Grammar} {j : Json} (h : j ≠ .null) :
    Accepts (.optional g) j ↔ Accepts g j := by
  refine ⟨fun hacc => ?_, .present⟩
  cases hacc with
  | absent => exact absurd rfl h
  | present hacc => exact hacc

theorem accepts_list_iff {item : Grammar} {xs : List Json} :
    Accepts (.list item) (.arr xs) ↔ ∀ x ∈ xs, Accepts item x :=
  ⟨fun | .list h => h, .list⟩

theorem accepts_payload_iff {variants : List (String × Grammar)} {name : String} {g : Grammar}
    {j : Json} (hg : variants.lookup name = some g) :
    Accepts (.enum variants) (.obj [(name, j)]) ↔ Accepts g j := by
  refine ⟨fun hacc => ?_, .payload hg⟩
  cases hacc with
  | payload hg' h =>
    rw [hg, Option.some.injEq] at hg'
    exact hg' ▸ h

namespace Grammar

/-! ## Parts of a document -/

/-- **What is read where**: reading a document by a grammar reads the part at
the end of the path by the other. -/
inductive At : Grammar → Json → List ℕ → Grammar → Json → Prop where
  | here {g : Grammar} {j : Json} : At g j [] g j
  | optional {g g' : Grammar} {j c : Json} {path : List ℕ} (h : At g j path g' c) :
      At (.optional g) j path g' c
  | item {item g' : Grammar} {xs : List Json} {i : ℕ} {x c : Json} {path : List ℕ}
      (hx : xs[i]? = some x) (h : At item x path g' c) : At (.list item) (.arr xs) (i :: path) g' c
  | member {fields : List (String × Grammar)} {g g' : Grammar} {ms : List (String × Json)} {i : ℕ}
      {m : String × Json} {c : Json} {path : List ℕ} (hm : ms[i]? = some m)
      (hg : fields.lookup m.fst = some g) (h : At g m.snd path g' c) :
      At (.struct fields) (.obj ms) (i :: path) g' c
  | position {fields : List (String × Grammar)} {g' : Grammar} {xs : List Json} {i : ℕ}
      {f : String × Grammar} {x c : Json} {path : List ℕ} (hf : fields[i]? = some f)
      (hx : xs[i]? = some x) (h : At f.snd x path g' c) :
      At (.struct fields) (.arr xs) (i :: path) g' c
  | payload {variants : List (String × Grammar)} {name : String} {g g' : Grammar} {j c : Json}
      {path : List ℕ} (hg : variants.lookup name = some g) (h : At g j path g' c) :
      At (.enum variants) (.obj [(name, j)]) (0 :: path) g' c

/-- The part at the root is the document. -/
theorem exists_at_root {g : Grammar} {j c : Json} (hacc : Accepts g j)
    (hplace : j.place [] = some c) : ∃ g', At g j [] g' c ∧ Accepts g' c := by
  rw [Json.place_nil, Option.some.injEq] at hplace
  subst hplace
  exact ⟨g, .here, hacc⟩

/-- **Every part of a document that is read is read by some grammar.** -/
theorem exists_at {g : Grammar} {j c : Json} {path : List ℕ} (hacc : Accepts g j)
    (hplace : j.place path = some c) : ∃ g', At g j path g' c ∧ Accepts g' c := by
  induction hacc generalizing path with
  | @present g j h ih =>
    obtain ⟨g', hat, hacc⟩ := ih hplace
    exact ⟨g', .optional hat, hacc⟩
  | @list item xs h ih =>
    cases path with
    | nil => exact exists_at_root (.list h) hplace
    | cons i path =>
      rw [Json.place_cons, Json.child, Option.bind_eq_some_iff] at hplace
      obtain ⟨x, hx, hplace⟩ := hplace
      obtain ⟨g', hat, hacc⟩ := ih x (List.mem_of_getElem? hx) hplace
      exact ⟨g', .item hx hat, hacc⟩
  | @object fields ms hdeclared hnd hread habsent ih =>
    cases path with
    | nil => exact exists_at_root (.object hdeclared hnd hread habsent) hplace
    | cons i path =>
      rw [Json.place_cons, Json.child, Option.bind_eq_some_iff] at hplace
      obtain ⟨x, hx, hplace⟩ := hplace
      obtain ⟨m, hm, rfl⟩ := Option.map_eq_some_iff.mp hx
      obtain ⟨g, hg⟩ := Json.exists_lookup_eq_some (hdeclared m (List.mem_of_getElem? hm))
      obtain ⟨g', hat, hacc⟩ := ih m (List.mem_of_getElem? hm) g hg hplace
      exact ⟨g', .member hm hg hat, hacc⟩
  | @tuple fields xs hlen hread ih =>
    cases path with
    | nil => exact exists_at_root (.tuple hlen hread) hplace
    | cons i path =>
      rw [Json.place_cons, Json.child, Option.bind_eq_some_iff] at hplace
      obtain ⟨x, hx, hplace⟩ := hplace
      have hi : i < fields.length := hlen ▸ (List.getElem?_eq_some_iff.mp hx).1
      have hf := List.getElem?_eq_getElem hi
      obtain ⟨g', hat, hacc⟩ := ih i _ x hf hx hplace
      exact ⟨g', .position hf hx hat, hacc⟩
  | @payload variants name g j hg h ih =>
    cases path with
    | nil => exact exists_at_root (.payload hg h) hplace
    | cons i path =>
      rw [Json.place_cons, Json.child, Option.bind_eq_some_iff] at hplace
      obtain ⟨x, hx, hplace⟩ := hplace
      obtain ⟨m, hm, rfl⟩ := Option.map_eq_some_iff.mp hx
      obtain ⟨rfl, rfl⟩ : i = 0 ∧ m = (name, j) := by
        cases i with
        | zero => exact ⟨rfl, (Option.some.inj hm).symm⟩
        | succ i => cases hm
      obtain ⟨g', hat, hacc⟩ := ih hplace
      exact ⟨g', .payload hg hat, hacc⟩
  | _ =>
    -- a scalar has no part but itself
    cases path with
    | nil => exact exists_at_root (by constructor <;> assumption) hplace
    | cons i path =>
      rw [Json.place_cons] at hplace
      cases hplace

/-- A part is read by names of the grammar only. -/
theorem At.names_subset {g g' : Grammar} {j c : Json} {path : List ℕ} (h : At g j path g' c) :
    g'.names ⊆ g.names := by
  induction h with
  | here => exact List.Subset.refl _
  | optional _ ih =>
    rw [names]
    exact ih
  | item _ _ ih =>
    rw [names]
    exact ih
  | member _ hg _ ih =>
    rw [names]
    exact List.Subset.trans ih (mem_namesOf hg).2
  | @position fields g' xs i f x c path hf _ _ ih =>
    rw [names]
    refine List.Subset.trans ih ?_
    clear ih
    have hmem := List.mem_of_getElem? hf
    clear hf
    induction fields with
    | nil => cases hmem
    | cons r fields ih =>
      unfold namesOf
      rcases List.mem_cons.mp hmem with rfl | hmem
      · exact fun x hx => List.mem_cons_of_mem _ (List.mem_append_left _ hx)
      · exact fun x hx => List.mem_cons_of_mem _ (List.mem_append_right _ (ih hmem hx))
  | payload hg _ ih =>
    rw [names]
    exact List.Subset.trans ih (mem_namesOf hg).2

/-- What is read at the root is the document itself, by a grammar that differs
in `null` only. -/
theorem At.root {g g' : Grammar} {j c : Json} (h : At g j [] g' c) :
    c = j ∧ ∀ j', j' ≠ .null → (Accepts g j' ↔ Accepts g' j') := by
  generalize hpath : ([] : List ℕ) = path at h
  induction h with
  | here => exact ⟨rfl, fun _ _ => Iff.rfl⟩
  | optional _ ih =>
    obtain ⟨hc, hiff⟩ := ih hpath
    exact ⟨hc, fun j' hj' => (accepts_optional_iff hj').trans (hiff j' hj')⟩
  | _ => cases hpath

/-- `null` has no part but itself. -/
theorem At.eq_nil_of_null {g g' : Grammar} {c : Json} {path : List ℕ} (h : At g .null path g' c) :
    path = [] := by
  generalize hnull : Json.null = j at h
  induction h with
  | here => rfl
  | optional _ ih => exact ih hnull
  | _ => cases hnull

/-- A list with one item exchanged has a property of all items just when the
new item has it. -/
theorem forall_mem_set_iff {α : Type} {p : α → Prop} {xs : List α} {i : ℕ} {x y : α}
    (h : ∀ z ∈ xs, p z) (hx : xs[i]? = some x) : (∀ z ∈ xs.set i y, p z) ↔ p y := by
  have hi := (List.getElem?_eq_some_iff.mp hx).1
  constructor
  · intro hall
    exact hall y (List.mem_of_getElem? (List.getElem?_set_self hi))
  · intro hy z hz
    rcases List.mem_or_eq_of_mem_set hz with hz | rfl
    · exact h z hz
    · exact hy

/-- **What is noticed at a place is noticed at the root**: a document that was
read, with one part changed, is read just when the changed part is, by the
grammar at its place. -/
theorem At.accepts_changeAt_iff {g g' : Grammar} {j c : Json} {path : List ℕ}
    (h : At g j path g' c) (hacc : Accepts g j) {f : Json → Json} (hf : f c ≠ .null) :
    ∃ j', j.changeAt f path = some j' ∧ j' ≠ .null ∧ (Accepts g j' ↔ Accepts g' (f c)) := by
  induction h with
  | @here g j => exact ⟨f j, Json.changeAt_nil f j, hf, Iff.rfl⟩
  | @optional g g' j c path h ih =>
    cases hacc with
    | absent =>
      obtain rfl := h.eq_nil_of_null
      obtain ⟨rfl, hiff⟩ := h.root
      exact ⟨f .null, Json.changeAt_nil f _, hf, (accepts_optional_iff hf).trans (hiff _ hf)⟩
    | present hacc =>
      obtain ⟨j', hchange, hne, hiff⟩ := ih hacc hf
      exact ⟨j', hchange, hne, (accepts_optional_iff hne).trans hiff⟩
  | @item item g' xs i x c path hx h ih =>
    rw [accepts_list_iff] at hacc
    obtain ⟨x', hchange, -, hiff⟩ := ih (hacc x (List.mem_of_getElem? hx)) hf
    refine ⟨.arr (xs.set i x'), ?_, Json.noConfusion, ?_⟩
    · rw [Json.changeAt, hx]
      show (Json.changeAt f path x).bind _ = _
      rw [hchange]
      rfl
    · rw [accepts_list_iff, forall_mem_set_iff hacc hx]
      exact hiff
  | @member fields g g' ms i m c path hm hg h ih =>
    cases hacc with
    | object hdeclared hnd hread habsent =>
      have hmem := List.mem_of_getElem? hm
      obtain ⟨v', hchange, -, hiff⟩ := ih (hread m hmem g hg) hf
      refine ⟨.obj (ms.set i (m.fst, v')), ?_, Json.noConfusion, ?_⟩
      · rw [Json.changeAt, hm]
        show (Json.changeAt f path m.snd).bind _ = _
        rw [hchange]
        rfl
      -- the names are those there were
      have hnames : (ms.set i (m.fst, v')).map Prod.fst = ms.map Prod.fst := by
        rw [List.map_set]
        obtain ⟨hi, rfl⟩ := List.getElem?_eq_some_iff.mp hm
        have hset := @List.set_getElem_self _ (ms.map Prod.fst) i
          (by rw [List.length_map]; exact hi)
        rwa [List.getElem_map] at hset
      have hread' : (∀ n ∈ ms.set i (m.fst, v'), ∀ r, fields.lookup n.fst = some r →
          Accepts r n.snd) ↔ Accepts g v' := by
        rw [forall_mem_set_iff hread hm]
        simp [hg]
      rw [← hiff, ← hread']
      constructor
      · intro hacc
        cases hacc with
        | object _ _ hread _ => exact hread
      · intro hread
        refine .object (fun n hn => ?_) (hnames ▸ hnd) hread (hnames ▸ habsent)
        have hname : n.fst ∈ ms.map Prod.fst := hnames ▸ List.mem_map_of_mem hn
        obtain ⟨m', hm', heq⟩ := List.mem_map.mp hname
        exact heq ▸ hdeclared m' hm'
  | @position fields g' xs i r x c path hr hx h ih =>
    cases hacc with
    | tuple hlen hread =>
      obtain ⟨x', hchange, -, hiff⟩ := ih (hread i r x hr hx) hf
      refine ⟨.arr (xs.set i x'), ?_, Json.noConfusion, ?_⟩
      · rw [Json.changeAt, hx]
        show (Json.changeAt f path x).bind _ = _
        rw [hchange]
        rfl
      have hi := (List.getElem?_eq_some_iff.mp hx).1
      rw [← hiff]
      constructor
      · intro hacc
        cases hacc with
        | tuple _ hread => exact hread i r x' hr (List.getElem?_set_self hi)
      · intro hx'
        refine .tuple (by rw [List.length_set, hlen]) (fun k r' y hr' hy => ?_)
        by_cases hk : i = k
        · subst hk
          rw [List.getElem?_set_self hi, Option.some.injEq] at hy
          rw [hr, Option.some.injEq] at hr'
          exact hy ▸ hr' ▸ hx'
        · rw [List.getElem?_set_ne hk] at hy
          exact hread k r' y hr' hy
  | @payload variants name g g' j c path hg h ih =>
    obtain ⟨j', hchange, -, hiff⟩ := ih ((accepts_payload_iff hg).mp hacc) hf
    refine ⟨.obj [(name, j')], ?_, Json.noConfusion, (accepts_payload_iff hg).trans hiff⟩
    show (Json.changeAt f path j).bind _ = _
    rw [hchange]
    rfl

end Grammar

/-! ## A part of another kind -/

/-- No grammar reads an object whose only member has a name of which it knows
nothing. -/
theorem not_accepts_marker {g : Grammar} {name : String} (h : name ∉ g.names) :
    ¬ Accepts g (.obj [(name, .bool true)]) := by
  intro hacc
  generalize hj : Json.obj [(name, .bool true)] = j at hacc
  induction hacc with
  | present _ ih =>
    rw [Grammar.names] at h
    exact ih h hj
  | @object fields ms hdeclared =>
    cases hj
    rw [Grammar.names] at h
    exact h (Grammar.mem_namesOf_of_mem (hdeclared _ List.mem_cons_self))
  | payload hg =>
    cases hj
    rw [Grammar.names] at h
    exact h (Grammar.mem_namesOf hg).1
  | _ => cases hj

/-- **No grammar forgives a document of another kind.** -/
theorem Accepts.not_flip {g : Grammar} {j : Json} (hacc : Accepts g j) {name : String}
    (h : name ∉ g.names) : ¬ Accepts g (j.flip name) := by
  induction hacc with
  | present _ ih =>
    rw [accepts_optional_iff (Json.flip_ne_null name _)]
    rw [Grammar.names] at h
    exact ih h
  | list =>
    intro hflip
    cases hflip
  | object =>
    intro hflip
    cases hflip
  | tuple =>
    intro hflip
    cases hflip
  | payload =>
    intro hflip
    rw [Grammar.names] at h
    cases hflip with
    | name hunit => exact h (Grammar.mem_namesOf hunit).1
  | _ => exact not_accepts_marker h

/-- **A document with a part of another kind is not read**, wherever the part
is. -/
theorem exists_changeAt_flip {g : Grammar} {j c : Json} {path : List ℕ} {name : String}
    (hacc : Accepts g j) (h : name ∉ g.names) (hplace : j.place path = some c) :
    ∃ j', j.changeAt (Json.flip name) path = some j' ∧ ¬ Accepts g j' := by
  obtain ⟨g', hat, hpart⟩ := Grammar.exists_at hacc hplace
  obtain ⟨j', hchange, -, hiff⟩ := hat.accepts_changeAt_iff hacc (Json.flip_ne_null name c)
  refine ⟨j', hchange, fun hread => ?_⟩
  exact hpart.not_flip (fun hmem => h (hat.names_subset hmem)) (hiff.mp hread)

/-- No object of a document that is read repeats a name. -/
theorem nodup_of_accepts {g : Grammar} {j : Json} {path : List ℕ} {ms : List (String × Json)}
    (hacc : Accepts g j) (hplace : j.place path = some (.obj ms)) : (ms.map Prod.fst).Nodup := by
  obtain ⟨g', -, hpart⟩ := Grammar.exists_at hacc hplace
  clear hplace hacc
  generalize hobj : Json.obj ms = c at hpart
  induction hpart with
  | present _ ih => exact ih hobj
  | object _ hnd =>
    cases hobj
    exact hnd
  | payload =>
    cases hobj
    exact List.nodup_singleton _
  | _ => cases hobj

/-! ## A member left out -/

/-- **An object is read without a member just when the member may be left
out.** -/
theorem Accepts.eraseMember_iff {g : Grammar} {ms : List (String × Json)}
    (hacc : Accepts g (.obj ms)) {m : String × Json} (hm : m ∈ ms) :
    Accepts g (Json.eraseMember m.fst (.obj ms)) ↔ g.mayOmit m.fst = true := by
  generalize hobj : Json.obj ms = j at hacc
  induction hacc with
  | present _ ih =>
    subst hobj
    rw [accepts_optional_iff Json.noConfusion, Grammar.mayOmit]
    exact ih rfl
  | @object fields ms hdeclared hnd hread habsent =>
    cases hobj
    rw [Grammar.mayOmit, List.all_eq_true]
    simp only [decide_eq_true_eq]
    constructor
    · intro h f hf hname
      cases h with
      | object _ _ _ habsent =>
        refine habsent f hf ?_
        rw [List.mem_map]
        rintro ⟨n, hn, heq⟩
        rw [List.mem_filter] at hn
        exact of_decide_eq_true hn.2 (heq.trans hname)
    · intro hoptional
      have hsub : (ms.filter (fun n => n.fst ≠ m.fst)).Sublist ms := List.filter_sublist
      refine .object (fun n hn => hdeclared n (hsub.mem hn)) ((hsub.map Prod.fst).nodup hnd)
        (fun n hn => hread n (hsub.mem hn)) (fun f hf hnot => ?_)
      by_cases hname : f.fst = m.fst
      · exact hoptional f hf hname
      · refine habsent f hf (fun hmem => hnot ?_)
        obtain ⟨n, hn, heq⟩ := List.mem_map.mp hmem
        refine List.mem_map.mpr ⟨n, List.mem_filter.mpr ⟨hn, decide_eq_true ?_⟩, heq⟩
        rw [heq]
        exact hname
  | @payload variants name g j =>
    -- without its only member the object names no variant
    cases hobj
    obtain rfl := List.mem_singleton.mp hm
    refine iff_of_false (fun h => ?_) Bool.false_ne_true
    simp only [Json.eraseMember, ne_eq, not_true_eq_false, decide_false, Bool.false_eq_true,
      not_false_eq_true, List.filter_cons_of_neg, List.filter_nil] at h
    cases h
  | _ => cases hobj

/-! ### The optional fields of a grammar -/

namespace Grammar

mutual

/-- **The places of the optional fields**: the fields and variants that lead to
each, its own name last. Items of lists have no name. -/
def optionalPlaces : Grammar → List (List String)
  | .optional g => optionalPlaces g
  | .list item => optionalPlaces item
  | .struct fields =>
    (fields.filter (fun f => f.snd.isOptional)).map (fun f => [f.fst]) ++ optionalPlacesBelow fields
  | .enum variants => optionalPlacesBelow variants
  | _ => []

/-- The optional fields inside some fields or variants. -/
def optionalPlacesBelow : List (String × Grammar) → List (List String)
  | [] => []
  | (name, g) :: rest => (optionalPlaces g).map (name :: ·) ++ optionalPlacesBelow rest

end

mutual

/-- Whether no struct and no enum, at any depth, declares a name twice. -/
def distinctNames : Grammar → Bool
  | .optional g => distinctNames g
  | .list item => distinctNames item
  | .struct fields => decide (fields.map Prod.fst).Nodup && distinctNamesOf fields
  | .enum variants => decide (variants.map Prod.fst).Nodup && distinctNamesOf variants
  | _ => true

/-- Whether none of some fields or variants declares a name twice. -/
def distinctNamesOf : List (String × Grammar) → Bool
  | [] => true
  | (_, g) :: rest => distinctNames g && distinctNamesOf rest

end

/-- What is read where it is not `null`. -/
def present : Grammar → Grammar
  | .optional g => present g
  | g => g

/-- **The fields and variants on the way to a place** of a document. A struct
that is written as an array has its fields in order. -/
def trail : Grammar → Json → List ℕ → List String
  | _, _, [] => []
  | g, j, i :: path =>
    match g.present, j with
    | .list item, .arr xs => (xs[i]?).elim [] (fun x => trail item x path)
    | .struct fields, .obj ms | .enum fields, .obj ms => (ms[i]?).elim [] (fun m =>
      m.fst :: (fields.lookup m.fst).elim [] (fun g => trail g m.snd path))
    | .struct fields, .arr xs => (fields[i]?).elim [] (fun f =>
      f.fst :: (xs[i]?).elim [] (fun x => trail f.snd x path))
    | _, _ => []

theorem trail_optional (g : Grammar) (j : Json) (path : List ℕ) :
    (Grammar.optional g).trail j path = g.trail j path := by
  cases path with
  | nil => rw [trail, trail]
  | cons i path => simp only [trail, present]

theorem trail_item (item : Grammar) {xs : List Json} {i : ℕ} {x : Json} (hx : xs[i]? = some x)
    (path : List ℕ) : (list item).trail (.arr xs) (i :: path) = item.trail x path := by
  simp only [trail, present, hx, Option.elim_some]

theorem trail_member {fields : List (String × Grammar)} {ms : List (String × Json)} {i : ℕ}
    {m : String × Json} (hm : ms[i]? = some m) {g : Grammar} (hg : fields.lookup m.fst = some g)
    (path : List ℕ) :
    (struct fields).trail (.obj ms) (i :: path) = m.fst :: g.trail m.snd path := by
  simp only [trail, present, hm, hg, Option.elim_some]

theorem trail_position {fields : List (String × Grammar)} {xs : List Json} {i : ℕ}
    {f : String × Grammar} (hf : fields[i]? = some f) {x : Json} (hx : xs[i]? = some x)
    (path : List ℕ) :
    (struct fields).trail (.arr xs) (i :: path) = f.fst :: f.snd.trail x path := by
  simp only [trail, present, hf, hx, Option.elim_some]

theorem trail_payload {variants : List (String × Grammar)} {name : String} {g : Grammar}
    (hg : variants.lookup name = some g) (j : Json) (path : List ℕ) :
    (Grammar.enum variants).trail (.obj [(name, j)]) (0 :: path) = name :: g.trail j path := by
  simp only [trail, present, List.getElem?_cons_zero, hg, Option.elim_some]

/-- An optional field has a name. -/
theorem nil_notMem_optionalPlaces (g : Grammar) : [] ∉ g.optionalPlaces := by
  refine optionalPlaces.induct (fun g => [] ∉ g.optionalPlaces)
    (fun fields => [] ∉ optionalPlacesBelow fields)
    ?optional ?list ?struct ?enum ?leaf ?none ?some g
  case optional =>
    intro g ih
    rw [optionalPlaces]
    exact ih
  case list =>
    intro item ih
    rw [optionalPlaces]
    exact ih
  case struct =>
    intro fields ih
    rw [optionalPlaces, List.mem_append, List.mem_map]
    rintro (⟨f, -, hf⟩ | h)
    · cases hf
    · exact ih h
  case enum =>
    intro variants ih
    rw [optionalPlaces]
    exact ih
  case leaf =>
    intro g h1 h2 h3 h4
    rw [optionalPlaces]
    · exact List.not_mem_nil
    all_goals assumption
  case none =>
    rw [optionalPlacesBelow]
    exact List.not_mem_nil
  case some =>
    intro name g rest _ ih
    rw [optionalPlacesBelow, List.mem_append, List.mem_map]
    rintro (⟨place, -, hplace⟩ | h)
    · cases hplace
    · exact ih h

theorem mem_of_cons_mem_optionalPlacesBelow {fields : List (String × Grammar)} {name : String}
    {place : List String} (h : name :: place ∈ optionalPlacesBelow fields) :
    name ∈ fields.map Prod.fst := by
  induction fields with
  | nil => cases h
  | cons r fields ih =>
    rw [optionalPlacesBelow, List.mem_append, List.mem_map] at h
    rcases h with ⟨place', -, heq⟩ | h
    · exact (List.cons.inj heq).1 ▸ List.mem_cons_self
    · exact List.mem_cons_of_mem _ (ih h)

/-- **The optional fields inside a field** are those of its grammar. -/
theorem cons_mem_optionalPlacesBelow_iff {fields : List (String × Grammar)}
    (hnd : (fields.map Prod.fst).Nodup) {f : String × Grammar} (hf : f ∈ fields)
    {place : List String} :
    f.fst :: place ∈ optionalPlacesBelow fields ↔ place ∈ f.snd.optionalPlaces := by
  induction fields with
  | nil => cases hf
  | cons r fields ih =>
    rw [List.map_cons, List.nodup_cons] at hnd
    rw [optionalPlacesBelow, List.mem_append, List.mem_map]
    rcases List.mem_cons.mp hf with rfl | hmem
    · refine ⟨?_, fun h => .inl ⟨place, h, rfl⟩⟩
      rintro (⟨place', h, heq⟩ | h)
      · exact (List.cons.inj heq).2 ▸ h
      · exact absurd (mem_of_cons_mem_optionalPlacesBelow h) hnd.1
    · rw [← ih hnd.2 hmem]
      refine ⟨?_, .inr⟩
      rintro (⟨place', -, heq⟩ | h)
      · exact absurd ((List.cons.inj heq).1 ▸ List.mem_map_of_mem hmem) hnd.1
      · exact h

/-- Of a struct, too, where the place goes on from the field. -/
theorem cons_append_mem_optionalPlaces_iff {fields : List (String × Grammar)}
    (hnd : (fields.map Prod.fst).Nodup) {f : String × Grammar} (hf : f ∈ fields)
    {trail : List String} {name : String} :
    f.fst :: (trail ++ [name]) ∈ (struct fields).optionalPlaces ↔
      trail ++ [name] ∈ f.snd.optionalPlaces := by
  rw [optionalPlaces, List.mem_append, cons_mem_optionalPlacesBelow_iff hnd hf, List.mem_map]
  refine ⟨?_, .inr⟩
  rintro (⟨f', -, heq⟩ | h)
  · exact absurd (List.cons.inj heq).2.symm (List.append_ne_nil_of_right_ne_nil _ (by simp))
  · exact h

theorem distinctNames_of_mem {fields : List (String × Grammar)}
    (h : distinctNamesOf fields = true) {f : String × Grammar} (hf : f ∈ fields) :
    f.snd.distinctNames = true := by
  induction fields with
  | nil => cases hf
  | cons r fields ih =>
    rw [distinctNamesOf, Bool.and_eq_true] at h
    rcases List.mem_cons.mp hf with rfl | hf
    · exact h.1
    · exact ih h.2 hf

/-- An object may leave a member out just when the place of the member is one
of an optional field. -/
theorem mayOmit_iff_mem_optionalPlaces {g : Grammar} {ms : List (String × Json)}
    (hacc : Accepts g (.obj ms)) (hg : g.distinctNames = true) {m : String × Json} (hm : m ∈ ms) :
    g.mayOmit m.fst = true ↔ [m.fst] ∈ g.optionalPlaces := by
  generalize hobj : Json.obj ms = j at hacc
  induction hacc with
  | present _ ih =>
    subst hobj
    rw [mayOmit, optionalPlaces]
    exact ih hg rfl
  | @object fields ms hdeclared _ _ _ =>
    cases hobj
    rw [distinctNames, Bool.and_eq_true, decide_eq_true_eq] at hg
    obtain ⟨f, hf, hname⟩ := List.mem_map.mp (hdeclared m hm)
    rw [mayOmit, List.all_eq_true, optionalPlaces, List.mem_append, ← hname,
      cons_mem_optionalPlacesBelow_iff hg.1 hf, List.mem_map]
    simp only [decide_eq_true_eq, List.mem_filter]
    constructor
    · intro h
      exact .inl ⟨f, ⟨hf, h f hf rfl⟩, rfl⟩
    · rintro (⟨f', ⟨hf', hopt⟩, heq⟩ | h) r hr hrf
      · have hsame : r = f' := List.inj_on_of_nodup_map hg.1 hr hf'
          (hrf.trans (List.cons.inj heq).1.symm)
        rwa [hsame]
      · exact absurd h (nil_notMem_optionalPlaces _)
  | @payload variants name g j hlookup =>
    cases hobj
    obtain rfl := List.mem_singleton.mp hm
    rw [distinctNames, Bool.and_eq_true, decide_eq_true_eq] at hg
    have hf := Json.mem_of_lookup_eq_some hlookup
    rw [optionalPlaces, cons_mem_optionalPlacesBelow_iff hg.1 hf]
    exact iff_of_false (fun h => absurd h Bool.false_ne_true) (nil_notMem_optionalPlaces g)
  | _ => cases hobj

/-- **An object may leave a member out just when it stands for an optional
field of the document's grammar.** The induction is that on the place of the
object. -/
theorem At.mayOmit_iff {g g' : Grammar} {j : Json} {path : List ℕ} {ms : List (String × Json)}
    (h : At g j path g' (.obj ms)) (hacc : Accepts g' (.obj ms)) (hg : g.distinctNames = true)
    {m : String × Json} (hm : m ∈ ms) :
    g'.mayOmit m.fst = true ↔ g.trail j path ++ [m.fst] ∈ g.optionalPlaces := by
  generalize hobj : Json.obj ms = c at h
  induction h with
  | here =>
    subst hobj
    rw [trail]
    exact mayOmit_iff_mem_optionalPlaces hacc hg hm
  | optional _ ih =>
    rw [trail_optional, optionalPlaces]
    exact ih hacc hg hobj
  | item hx _ ih =>
    rw [distinctNames] at hg
    rw [trail_item _ hx, optionalPlaces]
    exact ih hacc hg hobj
  | @member fields _ _ _ _ _ _ path hm' hlookup _ ih =>
    rw [distinctNames, Bool.and_eq_true, decide_eq_true_eq] at hg
    have hf := Json.mem_of_lookup_eq_some hlookup
    rw [trail_member hm' hlookup, ih hacc (distinctNames_of_mem hg.2 hf) hobj, List.cons_append,
      cons_append_mem_optionalPlaces_iff hg.1 hf]
  | @position fields _ _ _ _ _ _ path hf hx _ ih =>
    rw [distinctNames, Bool.and_eq_true, decide_eq_true_eq] at hg
    have hmem := List.mem_of_getElem? hf
    rw [trail_position hf hx, ih hacc (distinctNames_of_mem hg.2 hmem) hobj, List.cons_append,
      cons_append_mem_optionalPlaces_iff hg.1 hmem]
  | @payload variants _ _ _ _ _ path hlookup _ ih =>
    rw [distinctNames, Bool.and_eq_true, decide_eq_true_eq] at hg
    have hf := Json.mem_of_lookup_eq_some hlookup
    rw [trail_payload hlookup, ih hacc (distinctNames_of_mem hg.2 hf) hobj, List.cons_append,
      optionalPlaces, cons_mem_optionalPlacesBelow_iff hg.1 hf]

end Grammar

/-- **A member can be left out just where its field is optional**: of every
object of a document that is read, and the place of the member tells. -/
theorem exists_eraseMember {g : Grammar} (hg : g.distinctNames = true) {j : Json} {path : List ℕ}
    {ms : List (String × Json)} (hacc : Accepts g j) (hplace : j.place path = some (.obj ms)) :
    ∃ g', Grammar.At g j path g' (.obj ms) ∧ ∀ m ∈ ms, ∃ j',
      j.changeAt (Json.eraseMember m.fst) path = some j' ∧
        (Accepts g j' ↔ g'.mayOmit m.fst = true) ∧
        (Accepts g j' ↔ g.trail j path ++ [m.fst] ∈ g.optionalPlaces) := by
  obtain ⟨g', hat, hpart⟩ := Grammar.exists_at hacc hplace
  refine ⟨g', hat, fun m hm => ?_⟩
  obtain ⟨j', hchange, -, hiff⟩ := hat.accepts_changeAt_iff hacc
    (f := Json.eraseMember m.fst) Json.noConfusion
  have hread := hiff.trans (hpart.eraseMember_iff hm)
  exact ⟨j', hchange, hread, hread.trans (hat.mayOmit_iff hpart hg hm)⟩

end Serde

open Serde

/-- **Types with a grammar**: the deserializer reads exactly its documents. -/
class Grammatical (α : Type) [Deserialize α] where
  /-- The grammar. -/
  grammar : Grammar
  /-- What is read are the documents of the grammar. -/
  isSome_iff : ∀ j, (deserialize (α := α) j).isSome = true ↔ Accepts grammar j
  /-- A field may be left out where the grammar is optional. -/
  missing_iff : (Deserialize.missing : Option α).isSome = grammar.isOptional

namespace Serde

/-! ## Scalars and containers -/

instance : Grammatical String where
  grammar := .text (fun _ => true)
  isSome_iff j := by
    cases j with
    | str s => exact ⟨fun _ => .text rfl, fun _ => rfl⟩
    | _ => exact iff_of_false (fun h => by cases h) (fun h => by cases h)
  missing_iff := rfl

instance (priority := low) {α : Type} [CheckedText α] : Grammatical α where
  grammar := .text (fun s => (CheckedText.accept (α := α) s).isSome)
  isSome_iff j := by
    cases j with
    | str s => exact ⟨fun h => .text h, fun | .text h => h⟩
    | _ => exact iff_of_false (fun h => by cases h) (fun h => by cases h)
  missing_iff := rfl

instance : Grammatical Bool where
  grammar := .boolean
  isSome_iff j := by
    cases j with
    | bool b => exact ⟨fun _ => .boolean, fun _ => rfl⟩
    | _ => exact iff_of_false (fun h => by cases h) (fun h => by cases h)
  missing_iff := rfl

instance : Grammatical UInt16 where
  grammar := .natural (2 ^ 16)
  isSome_iff j := by
    cases j with
    | nat n =>
      show (if n < 2 ^ 16 then some (UInt16.ofNat n) else none).isSome = true ↔ _
      constructor
      · intro h
        by_cases hn : n < 2 ^ 16
        · exact .natural hn
        · rw [if_neg hn] at h
          cases h
      · intro h
        cases h with
        | natural h =>
          rw [if_pos h]
          rfl
    | _ => exact iff_of_false (fun h => by cases h) (fun h => by cases h)
  missing_iff := rfl

section Containers

variable {α : Type} [Deserialize α] [Grammatical α]

instance : Grammatical (Option α) where
  grammar := .optional (Grammatical.grammar α)
  isSome_iff j := by
    cases j with
    | null => exact ⟨fun _ => .absent, fun _ => rfl⟩
    | _ =>
      show ((deserialize (α := α) _).map some).isSome = true ↔ _
      rw [Option.isSome_map, Grammatical.isSome_iff, accepts_optional_iff Json.noConfusion]
  missing_iff := rfl

/-- All the items of a list are read just when the list is. -/
theorem isSome_mapM_iff {α β : Type} {f : α → Option β} {xs : List α} :
    (xs.mapM f).isSome = true ↔ ∀ x ∈ xs, (f x).isSome = true := by
  induction xs with
  | nil => simp
  | cons x xs ih =>
    rw [List.mapM_cons, List.forall_mem_cons, ← ih]
    cases f x with
    | none => simp
    | some y => cases xs.mapM f <;> simp

instance : Grammatical (List α) where
  grammar := .list (Grammatical.grammar α)
  isSome_iff j := by
    cases j with
    | arr xs =>
      show (xs.mapM deserialize).isSome = true ↔ _
      rw [isSome_mapM_iff, accepts_list_iff]
      exact forall₂_congr (fun x _ => Grammatical.isSome_iff x)
    | _ => exact iff_of_false (fun h => by cases h) (fun h => by cases h)
  missing_iff := rfl

instance [LinearOrder α] : Grammatical (OrderedSet α) where
  grammar := Grammatical.grammar (List α)
  isSome_iff j := by
    show ((deserialize (α := List α) j).map OrderedSet.ofList).isSome = true ↔ _
    rw [Option.isSome_map]
    exact Grammatical.isSome_iff j
  missing_iff := rfl

end Containers

/-! ## Structs -/

/-- What the grammars of some fields ask of the members found. -/
def AcceptsFields (fields : List (String × Grammar)) (found : String → Option Json) : Prop :=
  ∀ f ∈ fields, (∀ c, found f.fst = some c → Accepts f.snd c) ∧
    (found f.fst = none → f.snd.isOptional = true)

/-- **The grammars of a struct's fields.** -/
class GrammaticalFields (β : Type) [Fields β] where
  /-- The grammar of each field. -/
  grammars : List String → List (String × Grammar)
  /-- The grammars stand under the names. -/
  grammars_names : ∀ names, names.length = Fields.arity β →
    (grammars names).map Prod.fst = names
  /-- What is read are the members that the grammars accept. -/
  isSome_iff : ∀ names found, names.length = Fields.arity β →
    ((Fields.read names found : Option β).isSome = true ↔ AcceptsFields (grammars names) found)

/-- No grammar has no name. -/
theorem grammars_names_unit (names : List String) (h : names.length = Fields.arity Unit) :
    ([] : List (String × Grammar)).map Prod.fst = names :=
  (List.length_eq_zero_iff.mp h).symm

/-- No field is always read. -/
theorem isSome_unit_iff (names : List String) (found : String → Option Json)
    (_ : names.length = Fields.arity Unit) :
    (Fields.read names found : Option Unit).isSome = true ↔ AcceptsFields [] found :=
  iff_of_true rfl (fun _ hf => absurd hf List.not_mem_nil)

/-- No field. -/
instance : GrammaticalFields Unit where
  grammars _ := []
  grammars_names := grammars_names_unit
  isSome_iff := isSome_unit_iff

/-- A field is read where it is found and read, or optional and not found. -/
theorem isSome_field_iff {α : Type} [Deserialize α] [Grammatical α]
    {found : String → Option Json} {name : String} :
    (field found name : Option α).isSome = true ↔
      (∀ c, found name = some c → Accepts (Grammatical.grammar α) c) ∧
        (found name = none → (Grammatical.grammar α).isOptional = true) := by
  unfold field
  cases hname : found name with
  | none =>
    show (Deserialize.missing : Option α).isSome = true ↔ _
    rw [Grammatical.missing_iff]
    simp
  | some c =>
    show (deserialize c : Option α).isSome = true ↔ _
    rw [Grammatical.isSome_iff]
    simp

/-- One field and the rest. -/
instance GrammaticalFields.pair {α β : Type} {_ : Serialize α} {_ : Deserialize α}
    {_ : LawfulSerde α} {_ : Strict α} {_ : Fields β} [Grammatical α] [GrammaticalFields β] :
    GrammaticalFields (α × β) where
  grammars
    | name :: names => (name, Grammatical.grammar α) :: GrammaticalFields.grammars β names
    | [] => []
  grammars_names names h := by
    cases names with
    | nil => cases h
    | cons name names =>
      exact congrArg (name :: ·) (GrammaticalFields.grammars_names names (Nat.succ.inj h))
  isSome_iff names found h := by
    cases names with
    | nil => cases h
    | cons name names =>
      have htail := GrammaticalFields.isSome_iff (β := β) names found (Nat.succ.inj h)
      show ((field found name : Option α).bind (fun v => (Fields.read names found).bind
        (fun rest => some (v, rest)))).isSome = true ↔ _
      unfold AcceptsFields
      rw [List.forall_mem_cons, ← isSome_field_iff, ← AcceptsFields, ← htail]
      cases (field found name : Option α) with
      | none => simp
      | some v => cases (Fields.read names found : Option β) <;> simp

/-- The fields found in an object are read just when the object is. -/
theorem acceptsFields_obj_iff {fields : List (String × Grammar)}
    (hfields : (fields.map Prod.fst).Nodup) {ms : List (String × Json)}
    (hdeclared : ∀ m ∈ ms, m.fst ∈ fields.map Prod.fst) (hnd : (ms.map Prod.fst).Nodup) :
    AcceptsFields fields (fun name => ms.lookup name) ↔ Accepts (.struct fields) (.obj ms) := by
  constructor
  · intro h
    refine .object hdeclared hnd (fun m hm g hg => ?_) (fun f hf hnot => ?_)
    · exact (h _ (Json.mem_of_lookup_eq_some hg)).1 m.snd ((Json.lookup_eq_some_iff_mem hnd).mpr hm)
    · refine (h f hf).2 (List.lookup_eq_none_iff.mpr (fun m hm => ?_))
      exact bne_iff_ne.mpr (fun heq => hnot (heq ▸ List.mem_map_of_mem hm))
  · intro h f hf
    cases h with
    | object _ _ hread habsent =>
      refine ⟨fun c hc => ?_, fun hnone => habsent f hf (fun hmem => ?_)⟩
      · exact hread _ (Json.mem_of_lookup_eq_some hc) f.snd
          ((Json.lookup_eq_some_iff_mem hfields).mpr hf)
      · obtain ⟨c, hc⟩ := Json.exists_lookup_eq_some hmem
        cases hnone.symm.trans hc

/-- The fields found in an array are read just when the array is. -/
theorem acceptsFields_arr_iff {fields : List (String × Grammar)}
    (hfields : (fields.map Prod.fst).Nodup) {xs : List Json} (hlen : xs.length = fields.length) :
    AcceptsFields fields (fun name => ((fields.map Prod.fst).zip xs).lookup name)
      ↔ Accepts (.struct fields) (.arr xs) := by
  have hkeys : (((fields.map Prod.fst).zip xs).map Prod.fst).Nodup := by
    rw [List.map_fst_zip (by rw [List.length_map]; exact hlen.ge)]
    exact hfields
  -- the name at a position finds the item there
  have hfound : ∀ (i : ℕ) (f : String × Grammar) (x : Json), fields[i]? = some f →
      xs[i]? = some x →
        ((fields.map Prod.fst).zip xs).lookup f.fst = some x := by
    intro i f x hf hx
    refine (Json.lookup_eq_some_iff_mem hkeys).mpr (List.mem_of_getElem? (i := i) ?_)
    rw [List.getElem?_zip_eq_some]
    exact ⟨by rw [List.getElem?_map, hf]; rfl, hx⟩
  constructor
  · intro h
    exact .tuple hlen (fun i f x hf hx =>
      (h f (List.mem_of_getElem? hf)).1 x (hfound i f x hf hx))
  · intro h f hf
    cases h with
    | tuple _ hread =>
      obtain ⟨i, hi⟩ := List.mem_iff_getElem?.mp hf
      have hlt : i < xs.length := hlen ▸ (List.getElem?_eq_some_iff.mp hi).1
      have hx := hfound i f _ hi (List.getElem?_eq_getElem hlt)
      refine ⟨fun c hc => ?_, fun hnone => by cases hnone.symm.trans hx⟩
      obtain rfl := Option.some.inj (hx.symm.trans hc)
      exact hread i f _ hi (List.getElem?_eq_getElem hlt)

/-- **A struct is read just when the grammars of its fields allow it.** -/
theorem isSome_struct_iff {α : Type} [Struct α] [GrammaticalFields (Struct.Tuple α)] (j : Json) :
    (deserialize j : Option α).isSome = true ↔
      Accepts (.struct (GrammaticalFields.grammars (Struct.Tuple α) (Struct.names α))) j := by
  have hnames := GrammaticalFields.grammars_names (β := Struct.Tuple α) (Struct.names α)
    Struct.length_names
  have hnd : ((GrammaticalFields.grammars (Struct.Tuple α) (Struct.names α)).map Prod.fst).Nodup :=
    hnames.symm ▸ Struct.nodup_names
  show ((structFields (Struct.names α) j).bind (fun found =>
    (Fields.read (Struct.names α) found).map Struct.ofTuple)).isSome = true ↔ _
  cases j with
  | obj ms =>
    rw [structFields]
    split_ifs with h
    · rw [Option.bind_some, Option.isSome_map, GrammaticalFields.isSome_iff _ _ Struct.length_names]
      exact acceptsFields_obj_iff hnd (hnames.symm ▸ h.1) h.2
    · refine iff_of_false (fun hsome => by cases hsome) (fun hacc => h ?_)
      cases hacc with
      | object hdeclared hnodup => exact ⟨hnames ▸ hdeclared, hnodup⟩
  | arr xs =>
    rw [structFields]
    have hlen : (GrammaticalFields.grammars (Struct.Tuple α) (Struct.names α)).length
        = (Struct.names α).length := by
      rw [← List.length_map (f := Prod.fst), hnames]
    split_ifs with h
    · rw [Option.bind_some, Option.isSome_map, GrammaticalFields.isSome_iff _ _ Struct.length_names,
        ← acceptsFields_arr_iff hnd (h.trans hlen.symm), hnames]
    · refine iff_of_false (fun hsome => by cases hsome) (fun hacc => h ?_)
      cases hacc with
      | tuple hlength => exact hlength.trans hlen
  | _ => exact iff_of_false (fun h => by cases h) (fun h => by cases h)

instance (priority := low) {α : Type} [Struct α] [GrammaticalFields (Struct.Tuple α)] :
    Grammatical α where
  grammar := .struct (GrammaticalFields.grammars (Struct.Tuple α) (Struct.names α))
  isSome_iff := isSome_struct_iff
  missing_iff := rfl

/-! ## Enums -/

/-- The reader of a variant and the grammar of its payload: a name alone is
read where there is no payload. -/
def ReadsVariant {α : Type} (reader : String × (Option Json → Option α))
    (variant : String × Grammar) : Prop :=
  reader.fst = variant.fst ∧
    (∀ c, (reader.snd (some c)).isSome = true ↔ Accepts variant.snd c) ∧
    ((reader.snd none).isSome = true ↔ variant.snd = .unit)

/-- A variant without payload. -/
theorem readsVariant_unit {α : Type} (name : String) (v : α) :
    ReadsVariant (name, unitVariant v) (name, .unit) := by
  refine ⟨rfl, fun c => ?_, iff_of_true rfl rfl⟩
  cases c with
  | null => exact iff_of_true rfl .unit
  | _ => exact iff_of_false (fun h => by cases h) (fun h => by cases h)

/-- A variant with a payload. -/
theorem readsVariant_newtype {α β : Type} [Deserialize β] [Grammatical β] (name : String)
    (make : β → α) (h : Grammatical.grammar β ≠ .unit) :
    ReadsVariant (name, newtypeVariant make) (name, Grammatical.grammar β) := by
  refine ⟨rfl, fun c => ?_, iff_of_false (fun hnone => by cases hnone) h⟩
  show ((deserialize c).map make).isSome = true ↔ _
  rw [Option.isSome_map]
  exact Grammatical.isSome_iff c

/-- A name finds a reader just when it finds a grammar, and then they go
together. -/
theorem lookup_readsVariant {α : Type} {table : List (String × (Option Json → Option α))}
    {variants : List (String × Grammar)} (h : List.Forall₂ ReadsVariant table variants)
    (name : String) :
    (table.lookup name = none ∧ variants.lookup name = none) ∨
      ∃ read g, table.lookup name = some read ∧ variants.lookup name = some g ∧
        ReadsVariant (name, read) (name, g) := by
  induction h with
  | nil => exact .inl ⟨rfl, rfl⟩
  | @cons t v table variants htv _ ih =>
    rw [List.lookup_cons, List.lookup_cons, ← htv.1]
    by_cases hname : name = t.fst
    · refine .inr ⟨t.snd, v.snd, ?_, ?_, rfl, htv.2⟩ <;> simp [hname]
    · rw [show (name == t.fst) = false from beq_false_of_ne hname]
      exact ih

/-- **An enum is read just when the grammars of its variants allow it.** -/
theorem isSome_enum_iff {α : Type} {table : List (String × (Option Json → Option α))}
    {variants : List (String × Grammar)} (h : List.Forall₂ ReadsVariant table variants)
    (j : Json) : (deserializeEnum table j).isSome = true ↔ Accepts (.enum variants) j := by
  show ((variant j).bind (fun p => (table.lookup p.fst).bind
    (fun read => read p.snd))).isSome = true ↔ _
  cases j with
  | str name =>
    show ((table.lookup name).bind (fun read => read none)).isSome = true ↔ _
    obtain ⟨hnone, hvariants⟩ | ⟨read, g, hread, hg, hvariant⟩ := lookup_readsVariant h name
    · rw [hnone]
      refine iff_of_false (fun h => by cases h) (fun hacc => ?_)
      cases hacc with
      | name hunit => cases hvariants.symm.trans hunit
    · rw [hread, Option.bind_some, hvariant.2.2]
      constructor
      · intro hunit
        exact .name (hunit ▸ hg)
      · intro hacc
        cases hacc with
        | name hunit => exact Option.some.inj (hg.symm.trans hunit)
  | obj ms =>
    cases ms with
    | nil => exact iff_of_false (fun h => by cases h) (fun h => by cases h)
    | cons m ms =>
      cases ms with
      | cons m' ms => exact iff_of_false (fun h => by cases h) (fun h => by cases h)
      | nil =>
        obtain ⟨name, c⟩ := m
        show ((table.lookup name).bind (fun read => read (some c))).isSome = true ↔ _
        obtain ⟨hnone, hvariants⟩ | ⟨read, g, hread, hg, hvariant⟩ := lookup_readsVariant h name
        · rw [hnone]
          refine iff_of_false (fun h => by cases h) (fun hacc => ?_)
          cases hacc with
          | payload hg => cases hvariants.symm.trans hg
        · rw [hread, Option.bind_some, hvariant.2.1, accepts_payload_iff hg]
  | _ => exact iff_of_false (fun h => by cases h) (fun h => by cases h)

instance (priority := low) {α : Type} [UnitEnum α] : Grammatical α where
  grammar := .enum (UnitEnum.variants.map (fun p : String × α => (p.fst, Grammar.unit)))
  isSome_iff := by
    refine isSome_enum_iff ?_
    unfold unitTable
    rw [List.forall₂_map_left_iff, List.forall₂_map_right_iff]
    exact List.forall₂_same.mpr (fun p _ => readsVariant_unit p.fst p.snd)
  missing_iff := rfl

/-- **A document that is not read any more.** -/
theorem deserialize_eq_none_iff {α : Type} [Deserialize α] [Grammatical α] {j : Json} :
    (deserialize j : Option α) = none ↔ ¬ Accepts (Grammatical.grammar α) j := by
  rw [← Grammatical.isSome_iff, Bool.not_eq_true, Option.isSome_eq_false_iff,
    Option.isNone_iff_eq_none]

end Serde
