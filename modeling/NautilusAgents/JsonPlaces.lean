import NautilusAgents.Json
import NautilusAgents.JsonPointer

/-!
# Values at JSON pointers

The tokens of a pointer lead from a document to one of its values: through an
object by the name of a member, through an array by an index. The value may be
looked up (`Json.resolve`) or replaced (`Json.replace`), and a list of pointers
carries values over from one document to another (`Json.transfer`).

Two documents differ at a leaf where one of them has a value without children
and the other has another value or none (`Json.LeafDiffers`). Documents that
differ at no leaf need not be the same – an empty object has no leaf – but
between objects with the same members a difference is one between two values of
one member (`Json.leafDiffers_obj_cons`), and a replacement goes the same way
(`Json.replace_obj_cons`), so that both are followed down to the leaves name by
name.
-/

open JsonPointer

namespace Json

/-- The array index a token denotes: digits without a leading zero, unless it
is zero. -/
def arrayIndex (token : Token) : Option ℕ :=
  if token = ['0'] ∨ (token ≠ [] ∧ token.all Char.isDigit ∧ token.head? ≠ some '0') then
    some (Nat.ofDigitChars 10 token 0)
  else none

/-- The value a token leads to. -/
def step (token : Token) : Json → Option Json
  | .obj members => members.lookup (String.ofList token)
  | .arr items => (arrayIndex token).bind (fun i => items[i]?)
  | _ => none

/-- **The value at a pointer.** -/
def resolve : List Token → Json → Option Json
  | [], j => some j
  | token :: tokens, j => (j.step token).bind (resolve tokens)

/-- Change the value of the first member with the name. -/
def modifyMember (name : String) (f : Json → Option Json) :
    List (String × Json) → Option (List (String × Json))
  | [] => none
  | (key, value) :: members =>
    if name = key then (f value).map (fun value => (key, value) :: members)
    else (modifyMember name f members).map (List.cons (key, value))

/-- **Replace the value at a pointer**, which has to be there. -/
def replace (value : Json) : List Token → Json → Option Json
  | [], _ => some value
  | token :: tokens, .obj members =>
    (modifyMember (String.ofList token) (replace value tokens) members).map .obj
  | token :: tokens, .arr items => do
    let i ← arrayIndex token
    let item ← items[i]?
    let item ← replace value tokens item
    some (.arr (items.set i item))
  | _ :: _, _ => none

/-- **Carry values over**: replace, one after another, the values at pointers
by those of a source. -/
def transfer (source : Json) (pointers : List (List Token)) (target : Json) : Option Json :=
  pointers.foldlM (fun target tokens =>
    (source.resolve tokens).bind (fun value => replace value tokens target)) target

/-- A value without children. -/
def IsLeaf : Json → Prop
  | .arr _ => False
  | .obj _ => False
  | _ => True

/-- **Two documents differ at a leaf** of one of them. -/
def LeafDiffers (x y : Json) (tokens : List Token) : Prop :=
  (∃ leaf, IsLeaf leaf ∧ (x.resolve tokens = some leaf ∨ y.resolve tokens = some leaf)) ∧
    x.resolve tokens ≠ y.resolve tokens

/-! ## Differences -/

theorem not_leafDiffers_self (x : Json) (tokens : List Token) : ¬ LeafDiffers x x tokens :=
  fun h => h.2 rfl

/-- **Leaves differ as a whole.** -/
theorem leafDiffers_of_isLeaf {x y : Json} (hx : IsLeaf x) (hy : IsLeaf y)
    {tokens : List Token} : LeafDiffers x y tokens ↔ tokens = [] ∧ x ≠ y := by
  cases tokens with
  | nil =>
    constructor
    · intro h
      exact ⟨rfl, fun heq => h.2 (congrArg some heq)⟩
    · rintro ⟨-, hne⟩
      exact ⟨⟨x, hx, Or.inl rfl⟩, fun heq => hne (Option.some.inj heq)⟩
  | cons token tokens =>
    have hstep : ∀ {z : Json}, IsLeaf z → z.step token = none := by
      intro z hz
      cases z with
      | arr items => exact hz.elim
      | obj members => exact hz.elim
      | null | bool | nat | number | str => rfl
    constructor
    · rintro ⟨-, hne⟩
      exfalso
      refine hne ?_
      unfold resolve
      rw [hstep hx, hstep hy]
    · rintro ⟨h, -⟩
      cases h

theorem resolve_cons (token : Token) (tokens : List Token) (j : Json) :
    j.resolve (token :: tokens) = (j.step token).bind (resolve tokens) := rfl

theorem resolve_obj_cons_self (name : String) (value : Json) (members : List (String × Json))
    (tokens : List Token) :
    (Json.obj ((name, value) :: members)).resolve (name.toList :: tokens)
      = value.resolve tokens := by
  rw [resolve_cons, step, String.ofList_toList, List.lookup_cons_self, Option.bind_some]

theorem resolve_obj_cons_of_ne {name : String} {token : Token} (h : token ≠ name.toList)
    (value : Json) (members : List (String × Json)) (tokens : List Token) :
    (Json.obj ((name, value) :: members)).resolve (token :: tokens)
      = (Json.obj members).resolve (token :: tokens) := by
  have hne : (String.ofList token == name) = false := by
    rw [beq_eq_false_iff_ne]
    rintro rfl
    exact h String.toList_ofList.symm
  rw [resolve_cons, resolve_cons, step, step, List.lookup_cons, hne]

/-- **Objects whose first members have one name** differ between the values of
that member, or among the other members. -/
theorem leafDiffers_obj_cons {name : String} {v w : Json} {ms ns : List (String × Json)}
    {tokens : List Token} :
    LeafDiffers (.obj ((name, v) :: ms)) (.obj ((name, w) :: ns)) tokens ↔
      (∃ rest, tokens = name.toList :: rest ∧ LeafDiffers v w rest) ∨
        tokens.head? ≠ some name.toList ∧ LeafDiffers (.obj ms) (.obj ns) tokens := by
  cases tokens with
  | nil =>
    have hroot : ∀ {xs ys : List (String × Json)}, ¬ LeafDiffers (.obj xs) (.obj ys) [] := by
      rintro xs ys ⟨⟨leaf, hleaf, hx | hy⟩, -⟩
      · rw [← Option.some.inj hx] at hleaf
        exact hleaf
      · rw [← Option.some.inj hy] at hleaf
        exact hleaf
    constructor
    · exact fun h => (hroot h).elim
    · rintro (⟨rest, h, -⟩ | ⟨-, h⟩)
      · cases h
      · exact (hroot h).elim
  | cons token tokens =>
    unfold LeafDiffers
    rw [List.head?_cons]
    by_cases hname : token = name.toList
    · subst hname
      rw [resolve_obj_cons_self, resolve_obj_cons_self]
      constructor
      · exact fun h => Or.inl ⟨tokens, rfl, h⟩
      · rintro (⟨rest, hrest, h⟩ | ⟨hne, -⟩)
        · rw [(List.cons.inj hrest).2]
          exact h
        · exact absurd rfl hne
    · rw [resolve_obj_cons_of_ne hname, resolve_obj_cons_of_ne hname]
      constructor
      · exact fun h => Or.inr ⟨fun heq => hname (Option.some.inj heq), h⟩
      · rintro (⟨rest, hrest, -⟩ | ⟨-, h⟩)
        · exact absurd (List.cons.inj hrest).1 hname
        · exact h

theorem not_leafDiffers_obj_root {ms ns : List (String × Json)} :
    ¬ LeafDiffers (.obj ms) (.obj ns) [] := by
  rintro ⟨⟨leaf, hleaf, hx | hy⟩, -⟩
  · rw [← Option.some.inj hx] at hleaf
    exact hleaf
  · rw [← Option.some.inj hy] at hleaf
    exact hleaf

/-! ## Replacements -/

theorem replace_obj_cons_self (name : String) (value v : Json) (ms : List (String × Json))
    (tokens : List Token) :
    replace value (name.toList :: tokens) (.obj ((name, v) :: ms))
      = (replace value tokens v).map (fun v => .obj ((name, v) :: ms)) := by
  rw [replace, String.ofList_toList, modifyMember, if_pos rfl, Option.map_map]
  rfl

/-- The first member is kept where a pointer leads to another one. -/
theorem replace_obj_cons_of_ne {name : String} {token : Token} (h : token ≠ name.toList)
    (value v : Json) (ms : List (String × Json)) (tokens : List Token) :
    replace value (token :: tokens) (.obj ((name, v) :: ms))
      = (modifyMember (String.ofList token) (replace value tokens) ms).map
        (fun ms => .obj ((name, v) :: ms)) := by
  have hne : String.ofList token ≠ name := by
    rintro rfl
    exact h String.toList_ofList.symm
  rw [replace, modifyMember, if_neg hne, Option.map_map]
  rfl

theorem transfer_cons (source target : Json) (tokens : List Token)
    (pointers : List (List Token)) :
    transfer source (tokens :: pointers) target
      = ((source.resolve tokens).bind (fun value => replace value tokens target)).bind
        (transfer source pointers) := List.foldlM_cons

theorem transfer_append (source target : Json) (pointers more : List (List Token)) :
    transfer source (pointers ++ more) target
      = (transfer source pointers target).bind (transfer source more) := List.foldlM_append

/-- **Pointers into the first member** carry values over within it. -/
theorem transfer_obj_cons_self (name : String) (v w : Json) (ms ns : List (String × Json))
    (pointers : List (List Token)) :
    transfer (.obj ((name, w) :: ns)) (pointers.map (List.cons name.toList))
        (.obj ((name, v) :: ms))
      = (transfer w pointers v).map (fun v => .obj ((name, v) :: ms)) := by
  induction pointers generalizing v with
  | nil => rfl
  | cons tokens pointers ih =>
    rw [List.map_cons, transfer_cons, transfer_cons, resolve_obj_cons_self]
    cases w.resolve tokens with
    | none => rfl
    | some value =>
      rw [Option.bind_some, Option.bind_some, replace_obj_cons_self]
      cases replace value tokens v with
      | none => rfl
      | some v => exact ih v

/-- **Pointers past the first member** carry values over among the others. -/
theorem transfer_obj_cons_of_ne {name : String} (v w : Json) {ms ns ms' : List (String × Json)}
    {pointers : List (List Token)}
    (hpointers : ∀ tokens ∈ pointers, ∃ token rest, tokens = token :: rest ∧ token ≠ name.toList)
    (h : transfer (.obj ns) pointers (.obj ms) = some (.obj ms')) :
    transfer (.obj ((name, w) :: ns)) pointers (.obj ((name, v) :: ms))
      = some (.obj ((name, v) :: ms')) := by
  induction pointers generalizing ms with
  | nil =>
    obtain rfl : ms = ms' := Json.obj.inj (Option.some.inj h)
    rfl
  | cons tokens pointers ih =>
    rw [List.forall_mem_cons] at hpointers
    obtain ⟨⟨token, rest, rfl, htoken⟩, hpointers⟩ := hpointers
    rw [transfer_cons] at h ⊢
    rw [resolve_obj_cons_of_ne htoken]
    cases hvalue : (Json.obj ns).resolve (token :: rest) with
    | none =>
      rw [hvalue] at h
      cases h
    | some value =>
      rw [hvalue, Option.bind_some, replace] at h
      rw [Option.bind_some, replace_obj_cons_of_ne htoken]
      cases hmodify : modifyMember (String.ofList token) (replace value rest) ms with
      | none =>
        rw [hmodify] at h
        cases h
      | some changed =>
        rw [hmodify] at h
        exact ih hpointers h

/-! ## Lists of differences -/

/-- **The differences between two documents**: the pointers to the leaves at
which they differ, each once and leading to a value in both, such that carrying
the values over turns the one document into the other. -/
structure IsDiff (x y : Json) (pointers : List (List Token)) : Prop where
  /-- No pointer is listed twice. -/
  nodup : pointers.Nodup
  /-- The pointers are those to the leaves that differ. -/
  mem_iff : ∀ tokens, tokens ∈ pointers ↔ LeafDiffers x y tokens
  /-- Each leads to a value in both documents. -/
  resolves : ∀ tokens ∈ pointers, ∃ v w, x.resolve tokens = some v ∧ y.resolve tokens = some w
  /-- With the values at them the one document becomes the other. -/
  transfer_eq : transfer y pointers x = some y

/-- A document does not differ from itself. -/
theorem isDiff_self (x : Json) : IsDiff x x [] where
  nodup := List.nodup_nil
  mem_iff tokens := iff_of_false List.not_mem_nil (not_leafDiffers_self x tokens)
  resolves _ h := absurd h List.not_mem_nil
  transfer_eq := rfl

/-- **Leaves differ at their root**, or they are the same. -/
theorem isDiff_of_isLeaf {x y : Json} (hx : IsLeaf x) (hy : IsLeaf y) {p : Prop} [Decidable p]
    (hp : p ↔ x ≠ y) : IsDiff x y (if p then [[]] else []) := by
  by_cases h : p
  · rw [if_pos h]
    refine ⟨List.nodup_singleton _, fun tokens => ?_, fun tokens htokens => ?_, rfl⟩
    · rw [List.mem_singleton, leafDiffers_of_isLeaf hx hy]
      exact (and_iff_left (hp.mp h)).symm
    · rw [List.mem_singleton.mp htokens]
      exact ⟨x, y, rfl, rfl⟩
  · rw [if_neg h, show x = y by by_contra hne; exact h (hp.mpr hne)]
    exact isDiff_self y

/-- **Objects differ member by member.** Where the first members have one name,
the differences are those of their values, behind the name, and those of the
other members. -/
theorem IsDiff.obj_cons (name : String) {v w : Json} {ms ns : List (String × Json)}
    {pointers rest : List (List Token)} (h : IsDiff v w pointers)
    (hrest : IsDiff (.obj ms) (.obj ns) rest) (hname : name ∉ ms.map Prod.fst) :
    IsDiff (.obj ((name, v) :: ms)) (.obj ((name, w) :: ns))
      (pointers.map (List.cons name.toList) ++ rest) := by
  -- no pointer among the other members starts with the name
  have hne : ∀ tokens ∈ rest, ∃ token more, tokens = token :: more ∧ token ≠ name.toList := by
    intro tokens htokens
    obtain ⟨found, -, hfound, -⟩ := hrest.resolves tokens htokens
    cases tokens with
    | nil => exact absurd ((hrest.mem_iff []).mp htokens) not_leafDiffers_obj_root
    | cons token more =>
      refine ⟨token, more, rfl, ?_⟩
      rintro rfl
      rw [resolve_cons, step, String.ofList_toList, Option.bind_eq_some_iff] at hfound
      obtain ⟨value, hvalue, -⟩ := hfound
      exact hname (List.mem_map_of_mem (f := Prod.fst) (mem_of_lookup_eq_some hvalue))
  refine ⟨?_, fun tokens => ?_, fun tokens htokens => ?_, ?_⟩
  · refine List.Nodup.append (h.nodup.map (List.cons_injective)) hrest.nodup ?_
    rintro tokens hleft hright
    obtain ⟨more, -, rfl⟩ := List.mem_map.mp hleft
    obtain ⟨token, more', heq, htoken⟩ := hne _ hright
    exact htoken (List.cons.inj heq).1.symm
  · rw [leafDiffers_obj_cons, List.mem_append, List.mem_map]
    refine or_congr ⟨?_, ?_⟩ ⟨fun hmem => ?_, fun hmem => (hrest.mem_iff tokens).mpr hmem.2⟩
    · rintro ⟨more, hmore, rfl⟩
      exact ⟨more, rfl, (h.mem_iff more).mp hmore⟩
    · rintro ⟨more, rfl, hmore⟩
      exact ⟨more, (h.mem_iff more).mpr hmore, rfl⟩
    · obtain ⟨token, more, rfl, htoken⟩ := hne tokens hmem
      exact ⟨fun heq => htoken (Option.some.inj heq), (hrest.mem_iff _).mp hmem⟩
  · rcases List.mem_append.mp htokens with hleft | hright
    · obtain ⟨more, hmore, rfl⟩ := List.mem_map.mp hleft
      rw [resolve_obj_cons_self, resolve_obj_cons_self]
      exact h.resolves more hmore
    · obtain ⟨token, more, rfl, htoken⟩ := hne tokens hright
      rw [resolve_obj_cons_of_ne htoken, resolve_obj_cons_of_ne htoken]
      exact hrest.resolves _ hright
  · rw [transfer_append, transfer_obj_cons_self, h.transfer_eq]
    exact transfer_obj_cons_of_ne w w hne hrest.transfer_eq

/-- Objects with one member differ where its values do. -/
theorem IsDiff.obj_singleton (name : String) {v w : Json} {pointers : List (List Token)}
    (h : IsDiff v w pointers) :
    IsDiff (.obj [(name, v)]) (.obj [(name, w)]) (pointers.map (List.cons name.toList)) := by
  have hcons : IsDiff (.obj [(name, v)]) (.obj [(name, w)])
      (pointers.map (List.cons name.toList) ++ []) :=
    h.obj_cons name (isDiff_self (.obj [])) List.not_mem_nil
  rwa [List.append_nil] at hcons

/-- **Objects that agree in their first member** differ where the other members
do. -/
theorem IsDiff.obj_cons_same (name : String) (v : Json) {ms ns : List (String × Json)}
    {pointers : List (List Token)} (h : IsDiff (.obj ms) (.obj ns) pointers)
    (hname : name ∉ ms.map Prod.fst) :
    IsDiff (.obj ((name, v) :: ms)) (.obj ((name, v) :: ns)) pointers :=
  (isDiff_self v).obj_cons name h hname

end Json
