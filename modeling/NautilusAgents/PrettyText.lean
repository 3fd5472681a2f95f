import NautilusAgents.JsonText

/-!
# Indented JSON texts

The text a serializer writes for readers: one item or member a line, each
level two blanks further in, `": "` after a name, and nothing between the
brackets of an empty array or object. The scalars are written as in the
compact text, so the two texts differ in white space alone.

That white space is read away is a matter of where it stands. A line break
comes **before** an item and before the bracket that closes a list, and the
reader drops white space before it looks for either; no text ends in white
space, so that what follows a value is what the writer put there. Reading
therefore undoes the indented writer too, at every level
(`Json.reads_pretty`), and through the bytes (`Json.parse_prettyBytes`).

Documents whose numbers are natural ones are meant, of any size: an indented
text rounds nothing.
-/

namespace Json

/-- **Documents whose numbers are all natural**: no number is kept as its
lexeme. A repeated name does no harm here, and a number may be of any size.
This is the induction principle the proofs about indented texts use. -/
inductive Natural : Json → Prop where
  | null : Natural .null
  | bool (b : Bool) : Natural (.bool b)
  | nat (n : ℕ) : Natural (.nat n)
  | str (s : String) : Natural (.str s)
  | arr {items : List Json} (h : ∀ x ∈ items, Natural x) : Natural (.arr items)
  | obj {members : List (String × Json)} (h : ∀ m ∈ members, Natural m.snd) :
      Natural (.obj members)

attribute [simp] Natural.null Natural.bool Natural.nat Natural.str

@[simp] theorem natural_arr {items : List Json} :
    Natural (.arr items) ↔ ∀ x ∈ items, Natural x :=
  ⟨fun | .arr h => h, .arr⟩

@[simp] theorem natural_obj {members : List (String × Json)} :
    Natural (.obj members) ↔ ∀ m ∈ members, Natural m.snd :=
  ⟨fun | .obj h => h, .obj⟩

/-! ## Writing -/

/-- A line break and the indent of a level: two blanks for each. -/
def lineBreak (level : ℕ) : List Char := '\n' :: List.replicate (2 * level) ' '

/-- What stands before a closing bracket: a line break, unless the brackets
are empty. -/
def beforeClosing (level : ℕ) (texts : List (List Char)) : List Char :=
  if texts.isEmpty then [] else lineBreak level

mutual

/-- **The indented text of a document**, at a level. -/
def pretty : ℕ → Json → List Char
  | _, .null => write .null
  | _, .bool b => write (.bool b)
  | _, .nat n => write (.nat n)
  | _, .number lexeme => write (.number lexeme)
  | _, .str s => write (.str s)
  | level, .arr items =>
    '[' :: (commaSeparated (prettyItems (level + 1) items)
      ++ beforeClosing level (prettyItems (level + 1) items) ++ [']'])
  | level, .obj members =>
    '{' :: (commaSeparated (prettyMembers (level + 1) members)
      ++ beforeClosing level (prettyMembers (level + 1) members) ++ ['}'])

/-- The texts of the items of an array, each on a line of its own. -/
def prettyItems : ℕ → List Json → List (List Char)
  | _, [] => []
  | level, x :: xs => (lineBreak level ++ pretty level x) :: prettyItems level xs

/-- The texts of the members of an object, each on a line of its own. -/
def prettyMembers : ℕ → List (String × Json) → List (List Char)
  | _, [] => []
  | level, (k, v) :: ms =>
    (lineBreak level ++ quote k ++ ':' :: ' ' :: pretty level v) :: prettyMembers level ms

end

example : String.ofList (pretty 0 (.obj [("a", .arr [.nat 1, .null]), ("b", .obj [])]))
    = "\x7b\n  \"a\": [\n    1,\n    null\n  ],\n  \"b\": \x7b\x7d\n\x7d" := by
  decide

/-! ## Reading -/

theorem isSpace_of_mem_lineBreak {level : ℕ} {c : Char} (h : c ∈ lineBreak level) :
    isSpace c = true := by
  rcases List.mem_cons.mp h with rfl | hblank
  · decide
  · rw [List.eq_of_mem_replicate hblank]
    decide

theorem isSpace_of_mem_beforeClosing {level : ℕ} {texts : List (List Char)} {c : Char}
    (h : c ∈ beforeClosing level texts) : isSpace c = true := by
  unfold beforeClosing at h
  split_ifs at h
  · exact absurd h List.not_mem_nil
  · exact isSpace_of_mem_lineBreak h

theorem prettyItems_eq_map (level : ℕ) (items : List Json) :
    prettyItems level items = items.map (fun x => lineBreak level ++ pretty level x) := by
  induction items with
  | nil => rfl
  | cons x xs ih => rw [prettyItems, ih, List.map_cons]

theorem prettyMembers_eq_map (level : ℕ) (ms : List (String × Json)) :
    prettyMembers level ms
      = ms.map (fun m => lineBreak level ++ quote m.fst ++ ':' :: ' ' :: pretty level m.snd) := by
  induction ms with
  | nil => rfl
  | cons m ms ih => rw [prettyMembers, ih, List.map_cons]

/-- **Reading an indented value gives it back**, at every level. The induction
is on the document; an item is read past the line break in front of it, and a
value past the blank behind its name. -/
theorem reads_pretty {j : Json} (h : Natural j) (level : ℕ) : Reads j (pretty level j) := by
  induction h generalizing level with
  | null => exact reads_null
  | bool b => exact reads_bool b
  | nat n => exact reads_nat n
  | str s => exact reads_str s
  | @arr items h ih =>
    have hitems : List.Forall₂ Reads items (prettyItems (level + 1) items) := by
      rw [prettyItems_eq_map, List.forall₂_map_right_iff]
      exact List.forall₂_same.mpr (fun x hx =>
        (ih x hx (level + 1)).append (fun _ hc => isSpace_of_mem_lineBreak hc))
    unfold pretty
    exact reads_arr hitems (fun _ hc => isSpace_of_mem_beforeClosing hc)
  | @obj ms h ih =>
    have hmembers : List.Forall₂ ReadsMember ms (prettyMembers (level + 1) ms) := by
      rw [prettyMembers_eq_map, List.forall₂_map_right_iff]
      refine List.forall₂_same.mpr (fun m hm => ⟨lineBreak (level + 1), _, ?_,
        fun _ hc => isSpace_of_mem_lineBreak hc,
        @Reads.append _ _ [' '] (ih m hm (level + 1)) ?_⟩)
      · rw [List.append_assoc]
        rfl
      · intro c hc
        rw [List.mem_singleton.mp hc]
        decide
    unfold pretty
    exact reads_obj hmembers (fun _ hc => isSpace_of_mem_beforeClosing hc)

/-- **Reading undoes the indented writer**, whatever white space follows. -/
theorem parseText_pretty {j : Json} (h : Natural j) {blanks : List Char}
    (hblanks : ∀ c ∈ blanks, isSpace c = true) : parseText (pretty 0 j ++ blanks) = some j := by
  have hends : EndsNumber blanks := by
    rw [← List.append_nil blanks]
    exact endsNumber_append hblanks endsNumber_nil
  have hskip : skipSpace blanks = [] := by
    rw [← List.append_nil blanks, skipSpace_append hblanks]
    rfl
  have hread := reads_pretty h 0 ((pretty 0 j ++ blanks).length + 1) blanks
    (by rw [List.length_append]; omega) hends
  unfold parseText
  rw [hread]
  simp only [Option.bind_eq_bind, Option.bind_some, hskip]
  rfl

/-! ## Bytes -/

/-- **The bytes of a document, indented**: its text in UTF-8. -/
def prettyBytes (j : Json) : List UInt8 := utf8 (pretty 0 j)

/-- **Reading the bytes of an indented text and a line feed** gives the
document back. -/
theorem parse_prettyBytes {j : Json} (h : Natural j) :
    parse (prettyBytes j ++ [0x0a]) = some j := by
  have hbytes : prettyBytes j ++ [0x0a] = utf8 (pretty 0 j ++ ['\n']) := by
    unfold prettyBytes utf8
    rw [List.flatMap_append]
    rfl
  unfold parse
  rw [hbytes, utf8Decode_utf8, Option.bind_some]
  refine parseText_pretty h (fun c hc => ?_)
  rw [List.mem_singleton.mp hc]
  decide

end Json
