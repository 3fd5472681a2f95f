import NautilusAgents.JsonText
import NautilusAgents.Pattern

/-!
# JSON schemas

A schema says which documents it accepts, and that is what it is here: a
predicate on documents. Each keyword of a schema is a predicate of its own,
which leaves the documents of other types alone – a pattern says nothing of an
array – and a schema object accepts what all its keywords accept
(`Schema.allOf`). A schema that is referred to by name is the predicate of that
name.

The keywords are those of the 2020-12 draft that the published schemas use.
They see the value of a number and not how it is written (`Json.numberValue`):
an integer is a number without a fractional part, so that `1.0` and `1e0` are
integers as `1` is. Texts and the members of objects are compared as documents.
-/

/-- **A schema**: the documents it accepts. -/
abbrev Schema := Json → Prop

/-! ## Numbers -/

namespace Json

/-- The exponent behind a number: its sign, if it has one, and its digits. -/
def exponentValue : List Char → ℤ
  | _ :: '-' :: digits => -(Nat.ofDigitChars 10 digits 0 : ℤ)
  | _ :: '+' :: digits => Nat.ofDigitChars 10 digits 0
  | _ :: digits => Nat.ofDigitChars 10 digits 0
  | [] => 0

/-- The value of a number without a sign: the digits before and behind the
point, and the exponent. -/
def unsignedValue (cs : List Char) : ℚ :=
  let integer := cs.takeWhile Char.isDigit
  let rest := cs.dropWhile Char.isDigit
  let behind := if rest.head? = some '.' then rest.tail else []
  let fraction := behind.takeWhile Char.isDigit
  let exponent := if rest.head? = some '.' then behind.dropWhile Char.isDigit else rest
  Nat.ofDigitChars 10 (integer ++ fraction) 0 * 10 ^ (exponentValue exponent - fraction.length)

/-- **The value of a lexeme**, where it is a number. -/
def lexemeValue (lexeme : String) : Option ℚ :=
  if isNumber lexeme.toList then some (unsignedValue lexeme.toList)
  else if lexeme.toList.head? = some '-' ∧ isNumber lexeme.toList.tail then
    some (-unsignedValue lexeme.toList.tail)
  else none

/-- The value of a number. -/
def numberValue : Json → Option ℚ
  | .nat n => some n
  | .number lexeme => lexemeValue lexeme
  | _ => none

end Json

/-- The types of documents. -/
inductive JsonType where
  | null
  | boolean
  | integer
  | string
  | array
  | object
  deriving DecidableEq

/-- **The type of a document**; a number with a fractional part has none of
these. -/
def Json.type : Json → Option JsonType
  | .null => some .null
  | .bool _ => some .boolean
  | .nat _ => some .integer
  | .number lexeme =>
    if (lexemeValue lexeme).any (fun v => v.den = 1) then some .integer else none
  | .str _ => some .string
  | .arr _ => some .array
  | .obj _ => some .object

/-- A number has no other type. -/
theorem Json.type_number_ne {t : JsonType} (ht : t ≠ .integer) (lexeme : String) :
    (Json.number lexeme).type ≠ some t := by
  rw [Json.type]
  split_ifs
  · exact fun h => ht (Option.some.inj h).symm
  · exact fun h => nomatch h

/-- **Equal documents**: the members of an object have no order. -/
def Json.Same (x y : Json) : Prop := x.canonical = y.canonical

namespace Schema

/-! ## Keywords -/

/-- The document is of one of the types. -/
def type (types : List JsonType) : Schema := fun j => ∃ t ∈ types, j.type = some t

/-- The document is the text. -/
def const (value : String) : Schema := fun j => j = .str value

/-- A text matches the pattern. -/
def pattern (p : Pattern) : Schema := fun j => ∀ s, j = .str s → s.toList ∈ p.language

/-- A text has at least so many characters. -/
def minLength (n : ℕ) : Schema := fun j => ∀ s, j = .str s → n ≤ s.toList.length

/-- A text has at most so many characters. -/
def maxLength (n : ℕ) : Schema := fun j => ∀ s, j = .str s → s.toList.length ≤ n

/-- A number is no less. -/
def minimum (least : ℕ) : Schema := fun j => ∀ v, j.numberValue = some v → least ≤ v

/-- A number is no more. -/
def maximum (most : ℕ) : Schema := fun j => ∀ v, j.numberValue = some v → v ≤ most

/-- Every item of an array meets a schema. -/
def items (item : Schema) : Schema := fun j => ∀ xs, j = .arr xs → ∀ x ∈ xs, item x

/-- No item of an array is there twice. Numbers count as different where they are
written differently, which does not matter to arrays of texts. -/
def uniqueItems : Schema := fun j =>
  ∀ xs, j = .arr xs → xs.Pairwise (fun x y => ¬ x.Same y)

/-- A member with one of the names meets the schema of the name. -/
def properties (declared : List (String × Schema)) : Schema := fun j =>
  ∀ ms, j = .obj ms → ∀ m ∈ ms, ∀ s, declared.lookup m.fst = some s → s m.snd

/-- An object has a member with each of the names. -/
def required (names : List String) : Schema := fun j =>
  ∀ ms, j = .obj ms → ∀ name ∈ names, name ∈ ms.map Prod.fst

/-- `additionalProperties: false`, beside the properties declared. -/
def noAdditionalProperties (declared : List (String × Schema)) : Schema := fun j =>
  ∀ ms, j = .obj ms → ∀ m ∈ ms, m.fst ∈ declared.map Prod.fst

/-- All the keywords of a schema object. -/
def allOf (schemas : List Schema) : Schema := fun j => ∀ s ∈ schemas, s j

/-- At least one of the schemas accepts the document. -/
def anyOf (schemas : List Schema) : Schema := fun j => ∃ s ∈ schemas, s j

/-- **Exactly one** of the schemas accepts the document. -/
def oneOf (schemas : List Schema) : Schema := fun j =>
  ∃ before s after, schemas = before ++ s :: after ∧ s j ∧ ∀ t ∈ before ++ after, ¬ t j

/-! ## Schema objects -/

/-- A text that matches a pattern. -/
def string (p : Pattern) : Schema := allOf [pattern p, type [.string]]

/-- A list of items of one schema. -/
def array (item : Schema) : Schema := allOf [items item, type [.array]]

/-- A list of items of one schema, none of them twice. -/
def set (item : Schema) : Schema := allOf [items item, type [.array], uniqueItems]

/-- An object with these properties and no others. -/
def object (declared : List (String × Schema)) (names : List String) : Schema :=
  allOf [noAdditionalProperties declared, properties declared, required names, type [.object]]

/-- A name, as a variant without payload is published. -/
def name (value : String) : Schema := allOf [const value, type [.string]]

/-- A schema or `null`. -/
def orNull (s : Schema) : Schema := anyOf [s, type [.null]]

/-! ## What schema objects accept -/

@[simp] theorem allOf_cons {s : Schema} {schemas : List Schema} {j : Json} :
    allOf (s :: schemas) j ↔ s j ∧ allOf schemas j := List.forall_mem_cons

@[simp] theorem allOf_nil {j : Json} : allOf [] j := fun s hs => by cases hs

theorem type_singleton {t : JsonType} {j : Json} : type [t] j ↔ j.type = some t := by
  simp [type]

@[simp] theorem string_str {p : Pattern} {s : String} :
    string p (.str s) ↔ s.toList ∈ p.language := by
  simp [string, pattern, type_singleton, Json.type]

@[simp] theorem name_str {value s : String} : name value (.str s) ↔ s = value := by
  simp [name, const, type_singleton, Json.type]

theorem name_obj {value : String} {ms : List (String × Json)} : ¬ name value (.obj ms) := by
  simp [name, const]

@[simp] theorem array_arr {item : Schema} {xs : List Json} :
    array item (.arr xs) ↔ ∀ x ∈ xs, item x := by
  simp [array, items, type_singleton, Json.type]

@[simp] theorem set_arr {item : Schema} {xs : List Json} :
    set item (.arr xs) ↔ (∀ x ∈ xs, item x) ∧ xs.Pairwise (fun x y => ¬ x.Same y) := by
  simp [set, items, uniqueItems, type_singleton, Json.type]

theorem object_obj {declared : List (String × Schema)} {names : List String}
    {ms : List (String × Json)} :
    object declared names (.obj ms) ↔
      (∀ m ∈ ms, m.fst ∈ declared.map Prod.fst) ∧
      (∀ m ∈ ms, ∀ s, declared.lookup m.fst = some s → s m.snd) ∧
      ∀ name ∈ names, name ∈ ms.map Prod.fst := by
  simp only [object, allOf_cons, allOf_nil, noAdditionalProperties, properties, required,
    type_singleton, Json.type, Json.obj.injEq, forall_eq', and_true]

theorem object_arr {declared : List (String × Schema)} {names : List String} {xs : List Json} :
    ¬ object declared names (.arr xs) := by
  simp [object, type_singleton, Json.type]

theorem object_str {declared : List (String × Schema)} {names : List String} {s : String} :
    ¬ object declared names (.str s) := by
  simp [object, type_singleton, Json.type]

/-- An object of one member, as a variant with a payload is published. -/
theorem object_singleton {key name : String} {s : Schema} {payload : Json} :
    object [(key, s)] [key] (.obj [(name, payload)]) ↔ name = key ∧ s payload := by
  rw [object_obj]
  simp only [List.mem_singleton, forall_eq, List.map_cons, List.map_nil]
  constructor
  · rintro ⟨rfl, hprops, -⟩
    refine ⟨rfl, hprops s ?_⟩
    rw [List.lookup_cons_self]
  · rintro ⟨rfl, hs⟩
    refine ⟨rfl, fun t ht => ?_, rfl⟩
    rw [List.lookup_cons_self, Option.some.injEq] at ht
    exact ht ▸ hs

theorem orNull_null {s : Schema} : orNull s .null := by
  simp [orNull, anyOf, type_singleton, Json.type]

theorem orNull_iff {s : Schema} {j : Json} (h : j ≠ .null) : orNull s j ↔ s j := by
  have hnull : j.type ≠ some .null := by
    cases j with
    | null => exact absurd rfl h
    | number lexeme => exact Json.type_number_ne (by decide) lexeme
    | _ => exact fun htype => nomatch htype
  simp [orNull, anyOf, type_singleton, hnull]

/-- **Of schemas with different keys, the one that can accept decides.** -/
theorem oneOf_map_iff {α : Type} {f : α → Schema} {l : List α} {a : α} {j : Json}
    (hnd : l.Nodup) (ha : a ∈ l) (hothers : ∀ b ∈ l, b ≠ a → ¬ f b j) :
    oneOf (l.map f) j ↔ f a j := by
  constructor
  · rintro ⟨before, s, after, hsplit, hs, -⟩
    obtain ⟨b, hb, rfl⟩ := List.mem_map.mp (hsplit ▸ List.mem_append_right _ List.mem_cons_self)
    by_contra hne
    refine hothers b hb ?_ hs
    rintro rfl
    exact hne hs
  · intro hfa
    obtain ⟨before, after, rfl⟩ := List.mem_iff_append.mp ha
    rw [List.nodup_middle, List.nodup_cons] at hnd
    refine ⟨before.map f, f a, after.map f, by rw [List.map_append, List.map_cons], hfa, ?_⟩
    intro t ht
    rw [← List.map_append] at ht
    obtain ⟨b, hb, rfl⟩ := List.mem_map.mp ht
    refine hothers b ?_ (fun hba => hnd.1 (hba ▸ hb))
    rcases List.mem_append.mp hb with hb | hb
    · exact List.mem_append_left _ hb
    · exact List.mem_append_right _ (List.mem_cons_of_mem _ hb)

end Schema
