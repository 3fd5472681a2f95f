import NautilusAgents.DocumentGrammar
import NautilusAgents.Fixture
import NautilusAgents.Receipt

/-!
# Every part of a document counts

The repository tests its decoders by mutation: it goes through every member of
every valid fixture, at every depth, puts a value of another kind in its place
and expects the document to be refused. Here the test is the program that it
is – the walk that collects the paths, the assignment at the end of a path, the
check of a root type – and what it expects of sixteen fixtures holds of all
documents: whatever a decoder accepts, it refuses with any one member replaced
(`Mutation.replaced_is_refused`). It is not only what the encoders write that is
meant. A document may list its members in any order, leave optional ones out or
write a struct as an array.

The same grammars tell which members can be left out. These are the optional
ones, in any struct at any depth, and there are few places for them
(`Mutation.omitsOptional_protocol`).
-/

open Serde

/-! ## The grammars of the protocol -/

instance : GrammaticalFields (Struct.Tuple ProtocolVersion) := .pair

instance : GrammaticalFields (Struct.Tuple CapabilityGrant) := .pair

instance : GrammaticalFields (Struct.Tuple PositionView) := .pair

instance : GrammaticalFields (Struct.Tuple InstrumentView) := .pair

instance : GrammaticalFields (Struct.Tuple LiveObservation) := .pair

instance : GrammaticalFields (Struct.Tuple SourceProvenance) := .pair

instance : GrammaticalFields (Struct.Tuple FieldOmission) := .pair

instance : GrammaticalFields (Struct.Tuple ReducePosition) := .pair

instance : Grammatical ObservationPayload where
  grammar := .enum [("live", Grammatical.grammar LiveObservation)]
  isSome_iff := isSome_enum_iff (.cons (readsVariant_newtype _ _ Grammar.noConfusion) .nil)
  missing_iff := rfl

instance : Grammatical LiveIntent where
  grammar := .enum [("reduce_position", Grammatical.grammar ReducePosition)]
  isSome_iff := isSome_enum_iff (.cons (readsVariant_newtype _ _ Grammar.noConfusion) .nil)
  missing_iff := rfl

instance : GrammaticalFields (Struct.Tuple LiveProposal) := .pair

instance : GrammaticalFields (Struct.Tuple DecisionError) := .pair

instance : GrammaticalFields (Struct.Tuple PolicyMetadata) := .pair

instance : GrammaticalFields (Struct.Tuple AgentFailure) := .pair

instance : Grammatical TraceOutcome where
  grammar := .enum [("proposed", Grammatical.grammar LiveProposal), ("no_proposal", .unit),
    ("failed", Grammatical.grammar AgentFailure)]
  isSome_iff := isSome_enum_iff (.cons (readsVariant_newtype _ _ Grammar.noConfusion)
    (.cons (readsVariant_unit _ _)
      (.cons (readsVariant_newtype _ _ Grammar.noConfusion) .nil)))
  missing_iff := rfl

section Roots

variable [UuidCrate]

instance : GrammaticalFields (Struct.Tuple ObservationRef) := .pair

instance : GrammaticalFields (Struct.Tuple Observation) := .pair

instance : GrammaticalFields (Struct.Tuple LiveProposalRequest) := .pair

instance : GrammaticalFields (Struct.Tuple ProtocolError) := .pair

instance : GrammaticalFields (Struct.Tuple CorrelationRefs) := .pair

instance : GrammaticalFields (Struct.Tuple DecisionReceipt) := .pair

instance : Grammatical ProposalResponse where
  grammar := .enum [("receipt", Grammatical.grammar DecisionReceipt),
    ("error", Grammatical.grammar ProtocolError)]
  isSome_iff := isSome_enum_iff (.cons (readsVariant_newtype _ _ Grammar.noConfusion)
    (.cons (readsVariant_newtype _ _ Grammar.noConfusion) .nil))
  missing_iff := rfl

instance : GrammaticalFields (Struct.Tuple AgentTrace) := .pair

end Roots

namespace Mutation

/-! ## The test -/

/-- A step into a document. -/
inductive PathSegment where
  | key (key : String)
  | index (index : ℕ)
  deriving DecidableEq

mutual

/-- **The paths to every member of a document**, appended to those found so
far. -/
def collectPaths : Json → List PathSegment → List (List PathSegment) → List (List PathSegment)
  | .obj object, current, output => collectMembers object current output
  | .arr values, current, output => collectItems values 0 current output
  | _, _, output => output

/-- The loop over the members of an object. -/
def collectMembers : List (String × Json) → List PathSegment → List (List PathSegment) →
    List (List PathSegment)
  | [], _, output => output
  | (key, nested) :: rest, current, output =>
    collectMembers rest current
      (collectPaths nested (current ++ [.key key]) (output ++ [current ++ [.key key]]))

/-- The loop over the items of an array. An item has no path of its own. -/
def collectItems : List Json → ℕ → List PathSegment → List (List PathSegment) →
    List (List PathSegment)
  | [], _, _, output => output
  | nested :: rest, index, current, output =>
    collectItems rest (index + 1) current (collectPaths nested (current ++ [.index index]) output)

end

/-- **The place a path leads to**, which the source holds as a reference into
the document. -/
def locate : Json → List PathSegment → Option (List ℕ)
  | _, [] => some []
  | .obj members, .key key :: path => do
    let i ← members.findIdx? (fun m => m.fst == key)
    let m ← members[i]?
    let rest ← locate m.snd path
    some (i :: rest)
  | .arr items, .index i :: path => do
    let x ← items[i]?
    let rest ← locate x path
    some (i :: rest)
  | _, _ => none

/-- The name the test uses for what no type knows. -/
def invalidContractValue : String := "__invalid_contract_value__"

/-- **Put a value of another kind at the end of a path.** The empty path has no
last step. -/
def replaceWithInvalid (value : Json) (path : List PathSegment) : Option Json :=
  if path = [] then none
  else (locate value path).bind (fun place => value.changeAt (Json.flip invalidContractValue) place)

/-- **Whether a document is a valid value of a root type**; the test knows
these five. -/
def rootIsValid [UuidCrate] [Crates] (rootType : String) (value : Json) : Option Bool :=
  if rootType = "AgentTrace" then some (deserialize value : Option AgentTrace).isSome
  else if rootType = "DecisionReceipt" then
    some ((deserialize value : Option DecisionReceipt).any
      (fun receipt => decide (receipt.validate = .ok ())))
  else if rootType = "LiveProposalRequest" then
    some ((deserialize value : Option LiveProposalRequest).any
      (fun request => decide (request.validate = .ok ())))
  else if rootType = "Observation" then
    some ((deserialize value : Option Observation).any
      (fun observation => decide (observation.validate = .ok ())))
  else if rootType = "ProposalResponse" then
    some (deserialize value : Option ProposalResponse).isSome
  else none

/-! ## The walk -/

/-- **The paths to the members of a document.** -/
inductive MemberPath : Json → List PathSegment → Prop where
  | last {ms : List (String × Json)} {m : String × Json} (hm : m ∈ ms) :
      MemberPath (.obj ms) [.key m.fst]
  | key {ms : List (String × Json)} {m : String × Json} {path : List PathSegment} (hm : m ∈ ms)
      (h : MemberPath m.snd path) : MemberPath (.obj ms) (.key m.fst :: path)
  | index {xs : List Json} {i : ℕ} {x : Json} {path : List PathSegment} (hx : xs[i]? = some x)
      (h : MemberPath x path) : MemberPath (.arr xs) (.index i :: path)

theorem memberPath_obj_iff {ms : List (String × Json)} {path : List PathSegment} :
    MemberPath (.obj ms) path ↔ ∃ m ∈ ms, path = [.key m.fst] ∨
      ∃ rest, path = .key m.fst :: rest ∧ MemberPath m.snd rest := by
  constructor
  · intro h
    cases h with
    | last hm => exact ⟨_, hm, .inl rfl⟩
    | key hm h => exact ⟨_, hm, .inr ⟨_, rfl, h⟩⟩
  · rintro ⟨m, hm, rfl | ⟨rest, rfl, h⟩⟩
    · exact .last hm
    · exact .key hm h

theorem memberPath_arr_iff {xs : List Json} {path : List PathSegment} :
    MemberPath (.arr xs) path ↔ ∃ i x rest, xs[i]? = some x ∧ path = .index i :: rest ∧
      MemberPath x rest := by
  constructor
  · intro h
    cases h with
    | index hx h => exact ⟨_, _, _, hx, rfl, h⟩
  · rintro ⟨i, x, rest, hx, rfl, h⟩
    exact .index hx h

/-- **The walk collects the paths to the members**, after those found so
far. The induction is that of the walk: what holds of a document, of the
members left and of the items left. -/
theorem mem_collectPaths_iff (j : Json) (current : List PathSegment)
    (output : List (List PathSegment)) (path : List PathSegment) :
    path ∈ collectPaths j current output ↔
      path ∈ output ∨ ∃ rest, path = current ++ rest ∧ MemberPath j rest := by
  refine collectPaths.induct
    (fun j current output => path ∈ collectPaths j current output ↔
      path ∈ output ∨ ∃ rest, path = current ++ rest ∧ MemberPath j rest)
    (fun xs index current output => path ∈ collectItems xs index current output ↔
      path ∈ output ∨ ∃ i x rest, xs[i]? = some x ∧
        path = current ++ .index (index + i) :: rest ∧ MemberPath x rest)
    (fun ms current output => path ∈ collectMembers ms current output ↔
      path ∈ output ∨ ∃ m ∈ ms, path = current ++ [.key m.fst] ∨
        ∃ rest, path = current ++ .key m.fst :: rest ∧ MemberPath m.snd rest)
    ?object ?array ?scalar ?noItem ?item ?noMember ?member j current output
  case object =>
    intro ms current output ih
    rw [collectPaths, ih]
    refine or_congr Iff.rfl ⟨?_, ?_⟩
    · rintro ⟨m, hm, rfl | ⟨rest, rfl, h⟩⟩
      · exact ⟨_, rfl, .last hm⟩
      · exact ⟨_, rfl, .key hm h⟩
    · rintro ⟨rest, rfl, h⟩
      obtain ⟨m, hm, rfl | ⟨rest, rfl, hrest⟩⟩ := memberPath_obj_iff.mp h
      · exact ⟨m, hm, .inl rfl⟩
      · exact ⟨m, hm, .inr ⟨rest, rfl, hrest⟩⟩
  case array =>
    intro xs current output ih
    rw [collectPaths, ih]
    refine or_congr Iff.rfl ⟨?_, ?_⟩
    · rintro ⟨i, x, rest, hx, rfl, h⟩
      rw [Nat.zero_add]
      exact ⟨_, rfl, .index hx h⟩
    · rintro ⟨rest, rfl, h⟩
      obtain ⟨i, x, rest, hx, rfl, hrest⟩ := memberPath_arr_iff.mp h
      exact ⟨i, x, rest, hx, by rw [Nat.zero_add], hrest⟩
  case scalar =>
    intro j current output hobj harr
    have hnone : ∀ rest, ¬ MemberPath j rest := by
      intro rest h
      cases h with
      | last => exact hobj _ rfl
      | key => exact hobj _ rfl
      | index => exact harr _ rfl
    rw [collectPaths]
    · simp [hnone]
    · exact hobj
    · exact harr
  case noItem =>
    intro index current output
    simp [collectItems]
  case item =>
    intro nested rest index current output ihNested ihRest
    rw [collectItems, ihRest, ihNested, or_assoc]
    refine or_congr Iff.rfl ⟨?_, ?_⟩
    · rintro (⟨path, rfl, h⟩ | ⟨i, x, path, hx, rfl, h⟩)
      · exact ⟨0, nested, path, rfl, by simp, h⟩
      · exact ⟨i + 1, x, path, hx, by rw [Nat.add_right_comm, Nat.add_assoc], h⟩
    · rintro ⟨i, x, path, hx, rfl, h⟩
      cases i with
      | zero =>
        obtain rfl := Option.some.inj hx
        exact .inl ⟨path, by simp, h⟩
      | succ i =>
        exact .inr ⟨i, x, path, hx, by rw [Nat.add_right_comm, Nat.add_assoc], h⟩
  case noMember =>
    intro current output
    simp [collectMembers]
  case member =>
    intro key nested rest current output ihNested ihRest
    rw [collectMembers, ihRest, ihNested, List.mem_append, List.mem_singleton, or_assoc, or_assoc]
    refine or_congr Iff.rfl ⟨?_, ?_⟩
    · rintro (rfl | ⟨path, rfl, h⟩ | ⟨m, hm, h⟩)
      · exact ⟨_, List.mem_cons_self, .inl rfl⟩
      · exact ⟨_, List.mem_cons_self, .inr ⟨path, by simp, h⟩⟩
      · exact ⟨m, List.mem_cons_of_mem _ hm, h⟩
    · rintro ⟨m, hm, h⟩
      rcases List.mem_cons.mp hm with rfl | hm
      · rcases h with rfl | ⟨path, rfl, h⟩
        · exact .inl rfl
        · exact .inr (.inl ⟨path, by simp, h⟩)
      · exact .inr (.inr ⟨m, hm, h⟩)

/-! ## The assignment -/

/-- In an object without a repeated name, a name is found where its member
is. -/
theorem exists_findIdx {ms : List (String × Json)} (hnd : (ms.map Prod.fst).Nodup)
    {m : String × Json} (hm : m ∈ ms) :
    ∃ i, ms.findIdx? (fun n => n.fst == m.fst) = some i ∧ ms[i]? = some m := by
  induction ms with
  | nil => cases hm
  | cons n ms ih =>
    rw [List.map_cons, List.nodup_cons] at hnd
    rw [List.findIdx?_cons]
    rcases List.mem_cons.mp hm with rfl | hm
    · exact ⟨0, by simp, rfl⟩
    · have hne : n.fst ≠ m.fst := fun heq => hnd.1 (heq ▸ List.mem_map_of_mem hm)
      obtain ⟨i, hi, hget⟩ := ih hnd.2 hm
      refine ⟨i + 1, ?_, hget⟩
      simp [hne, hi]

/-- **The path to a member leads to a place.** -/
theorem exists_locate {j : Json} {path : List PathSegment} (h : MemberPath j path)
    (hj : j.DistinctNames) :
    path ≠ [] ∧ ∃ place c, locate j path = some place ∧ j.place place = some c := by
  induction h with
  | @last ms m hm =>
    obtain ⟨i, hi, hget⟩ := exists_findIdx (hj [] ms (Json.place_nil _)) hm
    refine ⟨List.cons_ne_nil _ _, [i], m.snd, ?_, ?_⟩
    · simp [locate, hi, hget]
    · rw [Json.place_cons, Json.child, hget]
      exact Json.place_nil _
  | @key ms m path hm h ih =>
    obtain ⟨i, hi, hget⟩ := exists_findIdx (hj [] ms (Json.place_nil _)) hm
    have hchild : (Json.obj ms).child i = some m.snd := by
      rw [Json.child, hget]
      rfl
    obtain ⟨-, place, c, hlocate, hplace⟩ := ih (hj.child hchild)
    refine ⟨List.cons_ne_nil _ _, i :: place, c, ?_, ?_⟩
    · simp [locate, hi, hget, hlocate]
    · rw [Json.place_cons, hchild]
      exact hplace
  | @index xs i x path hx h ih =>
    obtain ⟨-, place, c, hlocate, hplace⟩ := ih (hj.child (i := i) hx)
    refine ⟨List.cons_ne_nil _ _, i :: place, c, ?_, ?_⟩
    · simp [locate, hx, hlocate]
    · rw [Json.place_cons, show (Json.arr xs).child i = some x from hx]
      exact hplace

/-- **One document is the other with a value replaced**: they hold `old` and
`new` at the end of the path, and are the same everywhere else. -/
inductive ReplacedAt (old new : Json) : List PathSegment → Json → Json → Prop where
  | here : ReplacedAt old new [] old new
  | key {ms : List (String × Json)} {i : ℕ} {key : String} {x y : Json} {path : List PathSegment}
      (hm : ms[i]? = some (key, x)) (h : ReplacedAt old new path x y) :
      ReplacedAt old new (.key key :: path) (.obj ms) (.obj (ms.set i (key, y)))
  | index {xs : List Json} {i : ℕ} {x y : Json} {path : List PathSegment} (hx : xs[i]? = some x)
      (h : ReplacedAt old new path x y) :
      ReplacedAt old new (.index i :: path) (.arr xs) (.arr (xs.set i y))

/-- **What the test puts in the place of a value**: its name for an object or
an array, and an object with that one member for anything else. -/
inductive OfAnotherKind : Json → Json → Prop where
  | object (ms : List (String × Json)) : OfAnotherKind (.obj ms) (.str invalidContractValue)
  | array (xs : List Json) : OfAnotherKind (.arr xs) (.str invalidContractValue)
  | scalar {j : Json} (hobj : ∀ ms, j ≠ .obj ms) (harr : ∀ xs, j ≠ .arr xs) :
      OfAnotherKind j (.obj [(invalidContractValue, .bool true)])

theorem ofAnotherKind_flip (j : Json) : OfAnotherKind j (j.flip invalidContractValue) := by
  cases j with
  | obj ms => exact .object ms
  | arr xs => exact .array xs
  | _ => exact .scalar (fun _ h => Json.noConfusion h) (fun _ h => Json.noConfusion h)

/-- **A change at a place replaces the value there** and leaves the rest of the
document. -/
theorem replacedAt_of_changeAt {f : Json → Json} {value mutated : Json} {path : List PathSegment}
    {place : List ℕ} (hlocate : locate value path = some place)
    (hchange : value.changeAt f place = some mutated) :
    ∃ old, ReplacedAt old (f old) path value mutated := by
  induction value, path using locate.induct generalizing place mutated with
  | case1 value =>
    obtain rfl := Option.some.inj hlocate
    obtain rfl := Option.some.inj ((Json.changeAt_nil f value).symm.trans hchange)
    exact ⟨value, .here⟩
  | case2 ms key path ih =>
    obtain ⟨i, hi, hat⟩ := Option.bind_eq_some_iff.mp hlocate
    obtain ⟨⟨name, v⟩, hm, hbelow⟩ := Option.bind_eq_some_iff.mp hat
    obtain ⟨rest, hrest, hplace⟩ := Option.bind_eq_some_iff.mp hbelow
    obtain rfl := Option.some.inj hplace
    rw [Json.changeAt, hm] at hchange
    obtain ⟨w, hw, hset⟩ := Option.bind_eq_some_iff.mp
      (show (Json.changeAt f rest v).bind (fun w => some (Json.obj (ms.set i (name, w))))
        = some mutated from hchange)
    obtain rfl := Option.some.inj hset
    obtain ⟨hlt, hkey, -⟩ := List.findIdx?_eq_some_iff_getElem.mp hi
    obtain rfl : name = key := by
      rw [List.getElem?_eq_getElem hlt, Option.some.injEq] at hm
      rw [hm] at hkey
      exact eq_of_beq hkey
    obtain ⟨old, hold⟩ := ih (name, v) hrest hw
    exact ⟨old, .key hm hold⟩
  | case3 xs i path ih =>
    obtain ⟨x, hx, hbelow⟩ := Option.bind_eq_some_iff.mp hlocate
    obtain ⟨rest, hrest, hplace⟩ := Option.bind_eq_some_iff.mp hbelow
    obtain rfl := Option.some.inj hplace
    rw [Json.changeAt, hx] at hchange
    obtain ⟨y, hy, hset⟩ := Option.bind_eq_some_iff.mp
      (show (Json.changeAt f rest x).bind (fun y => some (Json.arr (xs.set i y)))
        = some mutated from hchange)
    obtain rfl := Option.some.inj hset
    obtain ⟨old, hold⟩ := ih x hrest hy
    exact ⟨old, .index hx hold⟩
  | case4 =>
    rw [locate] at hlocate
    · cases hlocate
    all_goals assumption

/-- **Every replaced member is noticed** by a check that accepts nothing that is
not decoded, if the grammar of the decoder does not know the test's name. -/
theorem exists_replaced {α : Type} [Deserialize α] [Grammatical α] (valid : Option α → Bool)
    (hnone : valid none = false)
    (hname : (Grammatical.grammar α).names.elem invalidContractValue = false) {value : Json}
    (hvalid : valid (deserialize value) = true) {path : List PathSegment}
    (hpath : MemberPath value path) :
    ∃ mutated old new, replaceWithInvalid value path = some mutated ∧ OfAnotherKind old new ∧
      ReplacedAt old new path value mutated ∧
      some (valid (deserialize mutated)) = some false := by
  have hread : (deserialize value : Option α).isSome = true := by
    rw [Option.isSome_iff_ne_none]
    intro h
    rw [h, hnone] at hvalid
    exact Bool.false_ne_true hvalid
  have hacc := (Grammatical.isSome_iff value).mp hread
  have hfresh : invalidContractValue ∉ (Grammatical.grammar α).names := by
    rw [← List.elem_iff, hname]
    exact Bool.false_ne_true
  obtain ⟨hne, place, c, hlocate, hplace⟩ := exists_locate hpath
    (fun _ _ hplace => nodup_of_accepts hacc hplace)
  obtain ⟨mutated, hchange, hrefused⟩ := exists_changeAt_flip hacc hfresh hplace
  obtain ⟨old, hreplaced⟩ := replacedAt_of_changeAt hlocate hchange
  refine ⟨mutated, old, _, ?_, ofAnotherKind_flip old, hreplaced, ?_⟩
  · unfold replaceWithInvalid
    rw [if_neg hne, hlocate]
    exact hchange
  · rw [deserialize_eq_none_iff.mpr hrefused, hnone]

section Roots

variable [UuidCrate] [Crates]

/-- **Every part of a document counts.** The walk finds the path to every
member of a document, at every depth, and no other path. Replacing at the end of
such a path in a valid value of a root type gives the same document but for the
value there, which is one of another kind; and this document is not valid any
more. -/
theorem replaced_is_refused (rootType : String) (value : Json) :
    (∀ path, path ∈ collectPaths value [] [] ↔ MemberPath value path) ∧
      (rootIsValid rootType value = some true → ∀ path ∈ collectPaths value [] [],
        ∃ mutated old new, replaceWithInvalid value path = some mutated ∧
          OfAnotherKind old new ∧ ReplacedAt old new path value mutated ∧
          rootIsValid rootType mutated = some false) := by
  have hwalk : ∀ path, path ∈ collectPaths value [] [] ↔ MemberPath value path := by
    intro path
    rw [mem_collectPaths_iff]
    simp
  refine ⟨hwalk, fun hvalid path hpath => ?_⟩
  rw [hwalk] at hpath
  unfold rootIsValid at hvalid ⊢
  split_ifs at hvalid ⊢ with htrace hreceipt hrequest hobservation hresponse
  · exact exists_replaced (fun trace : Option AgentTrace => trace.isSome) rfl rfl
      (Option.some.inj hvalid) hpath
  · exact exists_replaced (fun receipt : Option DecisionReceipt =>
      receipt.any (fun receipt => decide (receipt.validate = .ok ()))) rfl rfl
      (Option.some.inj hvalid) hpath
  · exact exists_replaced (fun request : Option LiveProposalRequest =>
      request.any (fun request => decide (request.validate = .ok ()))) rfl rfl
      (Option.some.inj hvalid) hpath
  · exact exists_replaced (fun observation : Option Observation =>
      observation.any (fun observation => decide (observation.validate = .ok ()))) rfl rfl
      (Option.some.inj hvalid) hpath
  · exact exists_replaced (fun response : Option ProposalResponse => response.isSome) rfl rfl
      (Option.some.inj hvalid) hpath

end Roots

/-- The quantity of the first observed position. -/
def quantityPath : List PathSegment :=
  [.key "payload", .key "live", .key "positions", .index 0, .key "quantity"]

open Fixture in
/-- The fixture with another quantity for its position is not an observation. -/
theorem replaced_is_refused_fixture :
    ∃ mutated old new, replaceWithInvalid (serialize observation) quantityPath = some mutated ∧
      OfAnotherKind old new ∧ ReplacedAt old new quantityPath (serialize observation) mutated ∧
      rootIsValid "Observation" mutated = some false := by
  refine (replaced_is_refused "Observation" (serialize observation)).2 ?_ quantityPath ?_
  · have hread : (deserialize (serialize observation) : Option Observation) = some observation :=
      deserialize_serialize observation
    show some ((deserialize (serialize observation) : Option Observation).any
      (fun observation => decide (observation.validate = .ok ()))) = some true
    rw [hread, Option.any_some, decide_eq_true validate_observation]
  · decide

/-! ## Members left out -/

/-- **Which members of a document can be left out**: of an object that is
read, wherever it is, those that stand for an optional field of the type read
there, and no others. These are the ones at a place, in terms of the fields and
variants that lead to it, where the root type has an optional field. -/
def OmitsOptional (α : Type) [Deserialize α] [Grammatical α] : Prop :=
  ∀ (value : Json) (path : List ℕ) (ms : List (String × Json)),
    (deserialize value : Option α).isSome = true → value.place path = some (.obj ms) →
      ∃ g, Grammar.At (Grammatical.grammar α) value path g (.obj ms) ∧ ∀ m ∈ ms, ∃ value',
        value.changeAt (Json.eraseMember m.fst) path = some value' ∧
          ((deserialize value' : Option α).isSome = true ↔ g.mayOmit m.fst = true) ∧
          ((deserialize value' : Option α).isSome = true ↔
            (Grammatical.grammar α).trail value path ++ [m.fst]
              ∈ (Grammatical.grammar α).optionalPlaces)

theorem omitsOptional {α : Type} [Deserialize α] [Grammatical α]
    (hdistinct : (Grammatical.grammar α).distinctNames = true) : OmitsOptional α := by
  intro value path ms hread hplace
  obtain ⟨g, hat, herase⟩ :=
    exists_eraseMember hdistinct ((Grammatical.isSome_iff value).mp hread) hplace
  refine ⟨g, hat, fun m hm => ?_⟩
  obtain ⟨value', hchange, hmay, hplaces⟩ := herase m hm
  have hiff := Grammatical.isSome_iff (α := α) value'
  exact ⟨value', hchange, hiff.trans hmay, hiff.trans hplaces⟩

/-- **What the root types let a sender leave out**: the revision of a source in
the provenance of an observation, the trace of a request, the error of a receipt
and either of its engine correlations – also where a response holds the receipt
–, and the request of a response's error. Of a trace nothing. -/
theorem omitsOptional_protocol [UuidCrate] :
    (OmitsOptional Observation ∧ OmitsOptional LiveProposalRequest ∧
      OmitsOptional DecisionReceipt ∧ OmitsOptional ProposalResponse ∧
      OmitsOptional AgentTrace) ∧
    (Grammatical.grammar Observation).optionalPlaces = [["provenance", "version"]] ∧
    (Grammatical.grammar LiveProposalRequest).optionalPlaces = [["agent_trace_id"]] ∧
    (Grammatical.grammar DecisionReceipt).optionalPlaces
      = [["error"], ["correlation", "engine_correlation_id"],
        ["correlation", "engine_causation_id"]] ∧
    (Grammatical.grammar ProposalResponse).optionalPlaces
      = [["receipt", "error"], ["receipt", "correlation", "engine_correlation_id"],
        ["receipt", "correlation", "engine_causation_id"], ["error", "request_id"]] ∧
    (Grammatical.grammar AgentTrace).optionalPlaces = [] :=
  ⟨⟨omitsOptional rfl, omitsOptional rfl, omitsOptional rfl, omitsOptional rfl,
      omitsOptional rfl⟩,
    rfl, rfl, rfl, rfl, rfl⟩

end Mutation
