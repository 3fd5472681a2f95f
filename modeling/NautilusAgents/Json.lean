import Mathlib

/-!
# JSON documents

A document is the tree a JSON text denotes, with the members of an object
kept in the order the text lists them and a repeated name kept as often as
it is written. A reader that refuses a repeated or an undeclared name has to
see it, so nothing is merged here.

Two things are said about documents. A **layout** (`Json.Layout`) rewrites a
document without changing what it says: the members of each object may be
put in another order, at every depth, and nothing else moves. The identity is
one, and so is the member order RFC 8785 asks for (`Json.canonical`), which
sorts the names by their UTF-16 code units; what is proved of every layout
holds of the plain and of the canonical form alike. And a place in a document
is a **path** of child positions, at which a member can be inserted
(`Json.insertAt`).
-/

/-- **A JSON document.** A natural number is kept as its value, since that is
what a reader of unsigned integers sees; any other number keeps its
lexeme. -/
inductive Json where
  | null
  | bool (b : Bool)
  | nat (n : ℕ)
  | number (lexeme : String)
  | str (s : String)
  | arr (items : List Json)
  | obj (members : List (String × Json))

namespace Json

/-- **Interoperable documents**: no object repeats a name, and every number is
a natural number that a double holds exactly, so that no serializer rounds or
merges anything. This is also the induction principle the proofs about
documents use, since its premises reach the children of arrays and
objects. -/
inductive IJson : Json → Prop where
  | null : IJson .null
  | bool (b : Bool) : IJson (.bool b)
  | nat {n : ℕ} (h : n ≤ 2 ^ 53) : IJson (.nat n)
  | str (s : String) : IJson (.str s)
  | arr {items : List Json} (h : ∀ x ∈ items, IJson x) : IJson (.arr items)
  | obj {members : List (String × Json)} (hnd : (members.map Prod.fst).Nodup)
      (h : ∀ m ∈ members, IJson m.snd) : IJson (.obj members)

attribute [simp] IJson.null IJson.bool IJson.str

@[simp] theorem iJson_arr {items : List Json} :
    IJson (.arr items) ↔ ∀ x ∈ items, IJson x :=
  ⟨fun | .arr h => h, .arr⟩

@[simp] theorem iJson_obj {members : List (String × Json)} :
    IJson (.obj members) ↔ (members.map Prod.fst).Nodup ∧ ∀ m ∈ members, IJson m.snd :=
  ⟨fun | .obj hnd h => ⟨hnd, h⟩, fun h => .obj h.1 h.2⟩

/-! ## Layouts -/

/-- **A layout** says the same in another member order: it keeps scalars, goes
through arrays item by item, and lists the members of an object, laid out in
turn, in some order. -/
structure Layout (f : Json → Json) : Prop where
  /-- It keeps null. -/
  null : f .null = .null
  /-- It keeps truth values. -/
  bool : ∀ b, f (.bool b) = .bool b
  /-- It keeps numbers. -/
  nat : ∀ n, f (.nat n) = .nat n
  /-- It keeps texts. -/
  str : ∀ s, f (.str s) = .str s
  /-- It goes through the items of an array in order. -/
  arr : ∀ items, f (.arr items) = .arr (items.map f)
  /-- It may list the members of an object in another order. -/
  obj : ∀ members, ∃ members' : List (String × Json),
    f (.obj members) = .obj members' ∧
      members'.Perm (members.map (fun m => (m.fst, f m.snd)))

/-- Leaving the document as it is is a layout. -/
theorem layout_id : Layout id where
  null := rfl
  bool _ := rfl
  nat _ := rfl
  str _ := rfl
  arr items := by rw [List.map_id]; rfl
  obj members := ⟨members, rfl, by simp⟩

/-- The UTF-16 code units of a character: one, or a surrogate pair. -/
def utf16 (c : Char) : List ℕ :=
  if c.toNat < 0x10000 then [c.toNat]
  else [0xD800 + (c.toNat - 0x10000) / 0x400, 0xDC00 + (c.toNat - 0x10000) % 0x400]

/-- The order RFC 8785 sorts member names in: by UTF-16 code units. -/
def nameLE (a b : String × Json) : Bool :=
  decide (a.fst.toList.flatMap utf16 ≤ b.fst.toList.flatMap utf16)

mutual

/-- **The member order of RFC 8785**: the members of every object sorted by
name, at every depth. -/
def canonical : Json → Json
  | .arr items => .arr (canonicalItems items)
  | .obj members => .obj ((canonicalMembers members).insertionSort (fun a b => nameLE a b))
  | .null => .null
  | .bool b => .bool b
  | .nat n => .nat n
  | .number lexeme => .number lexeme
  | .str s => .str s

/-- The items of an array, each in canonical order. -/
def canonicalItems : List Json → List Json
  | [] => []
  | x :: xs => canonical x :: canonicalItems xs

/-- The members of an object, each value in canonical order. -/
def canonicalMembers : List (String × Json) → List (String × Json)
  | [] => []
  | (k, v) :: ms => (k, canonical v) :: canonicalMembers ms

end

theorem canonicalItems_eq_map (items : List Json) :
    canonicalItems items = items.map canonical := by
  induction items with
  | nil => rfl
  | cons x xs ih => rw [canonicalItems, ih, List.map_cons]

theorem canonicalMembers_eq_map (members : List (String × Json)) :
    canonicalMembers members = members.map (fun m => (m.fst, canonical m.snd)) := by
  induction members with
  | nil => rfl
  | cons m ms ih => rw [canonicalMembers, ih, List.map_cons]

/-- **The canonical member order is a layout.** -/
theorem layout_canonical : Layout canonical where
  null := by rw [canonical]
  bool _ := by rw [canonical]
  nat _ := by rw [canonical]
  str _ := by rw [canonical]
  arr items := by rw [canonical, canonicalItems_eq_map]
  obj members := by
    refine ⟨_, by rw [canonical], ?_⟩
    rw [canonicalMembers_eq_map]
    exact List.perm_insertionSort _ _

/-- A layout repeats no name and keeps every number. -/
theorem IJson.layout {f : Json → Json} (hf : Layout f) {j : Json}
    (h : IJson j) : IJson (f j) := by
  induction h with
  | null => rw [hf.null]; exact .null
  | bool b => rw [hf.bool]; exact .bool b
  | nat h => rw [hf.nat]; exact .nat h
  | str s => rw [hf.str]; exact .str s
  | arr h ih =>
    rw [hf.arr, iJson_arr]
    intro x hx
    obtain ⟨y, hy, rfl⟩ := List.mem_map.mp hx
    exact ih y hy
  | obj hnd h ih =>
    obtain ⟨members', heq, hperm⟩ := hf.obj _
    rw [heq, iJson_obj]
    refine ⟨?_, fun m hm => ?_⟩
    · rw [(hperm.map Prod.fst).nodup_iff, List.map_map]
      exact hnd
    obtain ⟨y, hy, rfl⟩ := List.mem_map.mp (hperm.mem_iff.mp hm)
    exact ih y hy

/-! ## Members by name -/

/-- The members of an object: none for any other document. -/
def members : Json → List (String × Json)
  | .obj members => members
  | _ => []

/-- The first member of an object that carries the name. -/
def member (name : String) (j : Json) : Option Json :=
  j.members.lookup name

@[simp] theorem member_obj (name : String) (ms : List (String × Json)) :
    (Json.obj ms).member name = ms.lookup name := rfl

/-- What a lookup finds is listed under the name. -/
theorem mem_of_lookup_eq_some {β : Type} {l : List (String × β)} {name : String} {b : β}
    (h : l.lookup name = some b) : (name, b) ∈ l := by
  obtain ⟨l₁, l₂, rfl, -⟩ := List.lookup_eq_some_iff.mp h
  exact List.mem_append_right _ List.mem_cons_self

/-- A listed name is found. -/
theorem exists_lookup_eq_some {β : Type} {l : List (String × β)} {name : String}
    (h : name ∈ l.map Prod.fst) : ∃ b, l.lookup name = some b := by
  cases hb : l.lookup name with
  | none =>
    obtain ⟨p, hp, rfl⟩ := List.mem_map.mp h
    have hne := List.lookup_eq_none_iff.mp hb p hp
    simp at hne
  | some b => exact ⟨b, rfl⟩

/-- Looking a name up in a list of distinct names finds exactly its value. -/
theorem lookup_eq_some_iff_mem {β : Type} {ms : List (String × β)}
    (hnd : (ms.map Prod.fst).Nodup) {name : String} {v : β} :
    ms.lookup name = some v ↔ (name, v) ∈ ms := by
  induction ms with
  | nil => simp
  | cons m ms ih =>
    obtain ⟨k, w⟩ := m
    rw [List.map_cons, List.nodup_cons] at hnd
    rw [List.lookup_cons]
    by_cases hk : name = k
    · subst hk
      have hnot : ∀ u, (name, u) ∉ ms := fun u hu =>
        hnd.1 (List.mem_map.mpr ⟨_, hu, rfl⟩)
      simp [hnot v, eq_comm]
    · rw [show (name == k) = false from beq_false_of_ne hk]
      simp [ih hnd.2, hk]

/-- Mapping the values of a list of members maps what a lookup finds. -/
theorem lookup_map_snd (f : Json → Json) (ms : List (String × Json)) (name : String) :
    (ms.map (fun m => (m.fst, f m.snd))).lookup name = (ms.lookup name).map f := by
  induction ms with
  | nil => rfl
  | cons m ms ih =>
    rw [List.map_cons, List.lookup_cons, List.lookup_cons, ih]
    cases name == m.fst <;> rfl

/-- Two orders of the same members, with distinct names, give a name the same
value. -/
theorem lookup_perm {ms ms' : List (String × Json)} (hperm : ms'.Perm ms)
    (hnd : (ms.map Prod.fst).Nodup) (name : String) :
    ms'.lookup name = ms.lookup name := by
  have hnd' : (ms'.map Prod.fst).Nodup := (hperm.map Prod.fst).nodup_iff.mpr hnd
  refine Option.ext (fun v => ?_)
  rw [lookup_eq_some_iff_mem hnd', lookup_eq_some_iff_mem hnd]
  exact hperm.mem_iff

/-- **A layout moves members and keeps them**: a name of an object with
distinct names finds, in the laid out object, its value laid out. -/
theorem Layout.member {f : Json → Json} (hf : Layout f)
    {ms : List (String × Json)} (hnd : (ms.map Prod.fst).Nodup) (name : String) :
    (f (.obj ms)).member name = (ms.lookup name).map f := by
  obtain ⟨ms', heq, hperm⟩ := hf.obj ms
  rw [heq, member_obj, lookup_perm hperm, lookup_map_snd]
  rw [List.map_map]
  exact hnd

/-! ## Places in a document -/

/-- The child at a position: an item of an array, or the value of a member. -/
def child : Json → ℕ → Option Json
  | .arr items, i => items[i]?
  | .obj members, i => members[i]?.map Prod.snd
  | _, _ => none

/-- The document at the end of a path of child positions. -/
def place : Json → List ℕ → Option Json
  | j, [] => some j
  | j, i :: path => (j.child i).bind (fun c => c.place path)

@[simp] theorem place_nil (j : Json) : j.place [] = some j := by
  cases j <;> rfl

theorem place_cons (j : Json) (i : ℕ) (path : List ℕ) :
    j.place (i :: path) = (j.child i).bind (fun c => c.place path) := by
  cases j <;> rfl

/-- No path of the document is longer than the bound: it is nested at most
that deep. -/
def DepthLE (n : ℕ) (j : Json) : Prop :=
  ∀ path d, j.place path = some d → path.length ≤ n

/-- An object is one level deeper than its values. -/
theorem depthLE_obj {n : ℕ} {ms : List (String × Json)}
    (h : ∀ m ∈ ms, m.snd.DepthLE n) : (Json.obj ms).DepthLE (n + 1) := by
  intro path d hd
  cases path with
  | nil => exact Nat.zero_le _
  | cons i path =>
    rw [place_cons, child, Option.bind_eq_some_iff] at hd
    obtain ⟨c, hc, hd⟩ := hd
    obtain ⟨m, hm, rfl⟩ := Option.map_eq_some_iff.mp hc
    exact Nat.succ_le_succ (h m (List.mem_of_getElem? hm) path d hd)

theorem depthLE_str (n : ℕ) (s : String) : (Json.str s).DepthLE n := by
  intro path d hd
  cases path with
  | nil => exact Nat.zero_le _
  | cons i path => cases hd

theorem DepthLE.mono {m n : ℕ} {j : Json} (h : j.DepthLE m) (hmn : m ≤ n) : j.DepthLE n :=
  fun path d hd => (h path d hd).trans hmn

/-- **Insert a member** before position `n` of the object at the end of a
path. -/
def insertAt (n : ℕ) (m : String × Json) : List ℕ → Json → Option Json
  | [], .obj members => some (.obj (members.take n ++ m :: members.drop n))
  | i :: path, .obj members => do
    let (k, v) ← members[i]?
    let v' ← insertAt n m path v
    some (.obj (members.set i (k, v')))
  | i :: path, .arr items => do
    let x ← items[i]?
    let x' ← insertAt n m path x
    some (.arr (items.set i x'))
  | _, _ => none

end Json
