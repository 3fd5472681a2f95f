import Mathlib

/-!
# Ordered sets

A set kept as its elements in increasing order, which is what an iteration
over an ordered tree set yields: no element twice, and one list per set. The
order is a field of the structure, so two sets with the same elements are
equal, and a list that is not strictly increasing is no set.
-/

/-- **An ordered set**: a strictly increasing list of elements. -/
structure OrderedSet (α : Type) [LinearOrder α] where
  /-- The elements, in increasing order. -/
  elems : List α
  /-- Strictly increasing, so without repetition. -/
  sorted : elems.Pairwise (· < ·)
  deriving DecidableEq

attribute [ext] OrderedSet

namespace OrderedSet

variable {α : Type} [LinearOrder α]

/-- The set without elements. -/
def empty : OrderedSet α := ⟨[], List.Pairwise.nil⟩

/-- Whether the value is an element. -/
def contains (s : OrderedSet α) (a : α) : Bool := decide (a ∈ s.elems)

/-- Inserting a new value in order keeps the list strictly increasing. -/
theorem pairwise_orderedInsert {l : List α} (hl : l.Pairwise (· < ·)) {a : α}
    (ha : a ∉ l) : (l.orderedInsert (· ≤ ·) a).Pairwise (· < ·) := by
  have hle : (l.orderedInsert (· ≤ ·) a).Pairwise (· ≤ ·) :=
    (hl.imp le_of_lt).orderedInsert a l
  have hnd : (l.orderedInsert (· ≤ ·) a).Nodup := by
    rw [(List.perm_orderedInsert (· ≤ ·) a l).nodup_iff, List.nodup_cons]
    exact ⟨ha, hl.imp ne_of_lt⟩
  exact hle.imp₂ (fun _ _ h hne => lt_of_le_of_ne h hne) hnd

/-- Insert a value, which changes nothing where it is an element already. -/
def insert (s : OrderedSet α) (a : α) : OrderedSet α :=
  if h : a ∈ s.elems then s
  else ⟨s.elems.orderedInsert (· ≤ ·) a, pairwise_orderedInsert s.sorted h⟩

/-- **Insert the values of a list one by one.** -/
def ofList (l : List α) : OrderedSet α := l.foldl insert empty

@[simp] theorem contains_eq_true {s : OrderedSet α} {a : α} :
    s.contains a = true ↔ a ∈ s.elems := by
  unfold contains
  rw [decide_eq_true_iff]

@[simp] theorem mem_elems_empty (a : α) : ¬ a ∈ (empty : OrderedSet α).elems :=
  List.not_mem_nil

@[simp] theorem mem_elems_insert {s : OrderedSet α} {a b : α} :
    b ∈ (s.insert a).elems ↔ b = a ∨ b ∈ s.elems := by
  unfold insert
  split_ifs with h
  · constructor
    · exact Or.inr
    · rintro (rfl | hb)
      · exact h
      · exact hb
  · exact List.mem_orderedInsert _

/-- A value above every element goes to the end. -/
theorem elems_insert_of_forall_lt {s : OrderedSet α} {a : α}
    (h : ∀ b ∈ s.elems, b < a) : (s.insert a).elems = s.elems ++ [a] := by
  have hnot : a ∉ s.elems := fun ha => lt_irrefl a (h a ha)
  unfold insert
  rw [dif_neg hnot]
  show s.elems.orderedInsert (· ≤ ·) a = s.elems ++ [a]
  rw [List.orderedInsert_eq_take_drop,
    List.takeWhile_eq_self_iff.mpr (fun b hb => by simpa using h b hb),
    List.dropWhile_eq_nil_iff.mpr (fun b hb => by simpa using h b hb)]

/-- Inserting an increasing list above the elements appends it. -/
theorem elems_foldl_insert (l : List α) (s : OrderedSet α)
    (h : (s.elems ++ l).Pairwise (· < ·)) :
    (l.foldl insert s).elems = s.elems ++ l := by
  induction l generalizing s with
  | nil => rw [List.append_nil]; rfl
  | cons a l ih =>
    have happ : (s.insert a).elems = s.elems ++ [a] :=
      elems_insert_of_forall_lt (fun b hb =>
        (List.pairwise_append.mp h).2.2 b hb a List.mem_cons_self)
    rw [List.foldl_cons, ih (s.insert a) (by rw [happ]; simpa using h), happ]
    simp

/-- **A set is rebuilt from its own elements**, inserted in order. -/
theorem ofList_elems (s : OrderedSet α) : ofList s.elems = s := by
  refine OrderedSet.ext ?_
  rw [ofList, elems_foldl_insert s.elems empty (by simpa [empty] using s.sorted)]
  rfl

/-- The elements of a set are those of the list it was made of. -/
@[simp] theorem mem_elems_ofList {l : List α} {a : α} : a ∈ (ofList l).elems ↔ a ∈ l := by
  have hfold : ∀ (l : List α) (s : OrderedSet α),
      a ∈ (l.foldl insert s).elems ↔ a ∈ l ∨ a ∈ s.elems := by
    intro l
    induction l with
    | nil => simp
    | cons b l ih =>
      intro s
      rw [List.foldl_cons, ih, mem_elems_insert, List.mem_cons]
      tauto
  rw [ofList, hfold]
  simp

/-- **Lists of the same elements make the same set**, in whatever order and
however often they list them. -/
theorem ofList_eq_iff {l m : List α} :
    ofList l = ofList m ↔ (∀ a ∈ l, a ∈ m) ∧ ∀ a ∈ m, a ∈ l := by
  constructor
  · intro h
    refine ⟨fun a ha => ?_, fun a ha => ?_⟩
    · rwa [← mem_elems_ofList, ← h, mem_elems_ofList]
    · rwa [← mem_elems_ofList, h, mem_elems_ofList]
  · rintro ⟨hlm, hml⟩
    have hnodup : ∀ s : OrderedSet α, s.elems.Nodup := fun s => s.sorted.imp ne_of_lt
    have hperm : (ofList l).elems.Perm (ofList m).elems := by
      refine (List.perm_ext_iff_of_nodup (hnodup _) (hnodup _)).mpr (fun a => ?_)
      rw [mem_elems_ofList, mem_elems_ofList]
      exact ⟨hlm a, hml a⟩
    exact OrderedSet.ext (hperm.eq_of_pairwise (fun a b _ _ hab hba =>
      absurd hab (lt_asymm hba)) (ofList l).sorted (ofList m).sorted)

end OrderedSet
