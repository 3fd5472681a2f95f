import NautilusAgents.OrderedSet

/-!
# Collecting along a relation

A recursion over a structure that adds to a set what it meets. What it meets is
said without the recursion: from a state some others are directly below it, and
a state shows some values; the values shown below a state are those that a
state shows which can be reached from it (`ShownBelow`).

Two rules connect the two. A walk collects a predicate if it adds just the
values the predicate holds of (`Collects`), and walks are put together as the
predicates are. And where the states of one structure are images of those of
another, step by step, the same values are shown below them
(`shownBelow_map_iff`).
-/

/-! ## Walks -/

namespace OrderedSet

variable {α : Type} [LinearOrder α]

/-- **A set is its elements.** -/
theorem ext_mem {s t : OrderedSet α} (h : ∀ a, a ∈ s.elems ↔ a ∈ t.elems) : s = t := by
  have hs : s.elems.Nodup := s.sorted.imp ne_of_lt
  have ht : t.elems.Nodup := t.sorted.imp ne_of_lt
  refine OrderedSet.ext (List.Perm.eq_of_pairwise (fun a b _ _ hab hba => ?_) s.sorted t.sorted
    ((List.perm_ext_iff_of_nodup hs ht).mpr h))
  exact absurd hba (not_lt_of_gt hab)

end OrderedSet

/-- **A walk collects a predicate**: it adds to a set just the values the
predicate holds of. -/
def Collects {α : Type} [LinearOrder α] (walk : OrderedSet α → OrderedSet α) (P : α → Prop) :
    Prop :=
  ∀ s a, a ∈ (walk s).elems ↔ a ∈ s.elems ∨ P a

namespace Collects

variable {α : Type} [LinearOrder α] {walk walk' : OrderedSet α → OrderedSet α} {P Q : α → Prop}

/-- A walk that adds nothing. -/
theorem skip (h : ∀ a, ¬ P a) : Collects id P := by
  intro s a
  exact ⟨Or.inl, fun hor => hor.resolve_right (h a)⟩

/-- Adding one value. -/
theorem insert (a : α) : Collects (fun s => s.insert a) (fun b => b = a) := by
  intro s b
  rw [OrderedSet.mem_elems_insert]
  exact or_comm

/-- **One walk after another** collects what either does. -/
theorem seq (h : Collects walk P) (h' : Collects walk' Q) :
    Collects (fun s => walk' (walk s)) (fun a => P a ∨ Q a) := by
  intro s a
  rw [h' (walk s) a, h s a, or_assoc]

theorem congr (h : Collects walk P) (heq : ∀ a, P a ↔ Q a) : Collects walk Q := by
  intro s a
  rw [h s a, heq a]

/-- A turn that is taken under a condition. -/
theorem ite {c : Prop} [Decidable c] (h : Collects walk P) :
    Collects (if c then walk else id) (fun a => c ∧ P a) := by
  by_cases hc : c
  · rw [if_pos hc]
    exact h.congr (fun a => (and_iff_right hc).symm)
  · rw [if_neg hc]
    exact skip (fun a ha => hc ha.1)

/-- **A loop** collects what its turns do. -/
theorem foldl {β : Type} {turn : β → OrderedSet α → OrderedSet α} {R : β → α → Prop} {l : List β}
    (h : ∀ b ∈ l, Collects (turn b) (R b)) :
    Collects (fun s => l.foldl (fun s b => turn b s) s) (fun a => ∃ b ∈ l, R b a) := by
  induction l with
  | nil =>
    refine skip ?_
    rintro a ⟨b, hb, -⟩
    cases hb
  | cons b l ih =>
    rw [List.forall_mem_cons] at h
    refine (h.1.seq (ih h.2)).congr (fun a => ?_)
    rw [List.exists_mem_cons_iff]

end Collects

/-! ## What is shown below a state -/

section ShownBelow

variable {σ τ α : Type} {below : σ → σ → Prop} {shows : σ → α → Prop}

/-- **The values shown below a state**: those of the states that can be reached
from it, itself included. -/
def ShownBelow (below : σ → σ → Prop) (shows : σ → α → Prop) (s : σ) (a : α) : Prop :=
  ∃ t, Relation.ReflTransGen below s t ∧ shows t a

/-- What is shown below a state is shown there, or below a state directly below
it. -/
theorem shownBelow_iff {s : σ} {a : α} :
    ShownBelow below shows s a ↔ shows s a ∨ ∃ t, below s t ∧ ShownBelow below shows t a := by
  constructor
  · rintro ⟨u, hreach, hu⟩
    rcases hreach.cases_head with rfl | ⟨t, hst, htu⟩
    · exact .inl hu
    · exact .inr ⟨t, hst, u, htu, hu⟩
  · rintro (hs | ⟨t, hst, u, htu, hu⟩)
    · exact ⟨s, .refl, hs⟩
    · exact ⟨u, .head hst htu, hu⟩

variable {below' : τ → τ → Prop} {shows' : τ → α → Prop} (image : σ → τ) (good : σ → Prop)

/-- A reached state is good, and its image is reached. -/
theorem reflTransGen_image (hgood : ∀ ⦃s t⦄, good s → below s t → good t)
    (hbelow : ∀ ⦃s⦄, good s → ∀ u, below' (image s) u ↔ ∃ t, below s t ∧ u = image t) {s t : σ}
    (hs : good s) (h : Relation.ReflTransGen below s t) :
    good t ∧ Relation.ReflTransGen below' (image s) (image t) := by
  induction h with
  | refl => exact ⟨hs, .refl⟩
  | tail _ hstep ih =>
    exact ⟨hgood ih.1 hstep, ih.2.tail ((hbelow ih.1 _).mpr ⟨_, hstep, rfl⟩)⟩

/-- What is reached from an image is the image of a reached state. -/
theorem exists_reflTransGen_of_image (hgood : ∀ ⦃s t⦄, good s → below s t → good t)
    (hbelow : ∀ ⦃s⦄, good s → ∀ u, below' (image s) u ↔ ∃ t, below s t ∧ u = image t) {s : σ}
    (hs : good s) {u : τ} (h : Relation.ReflTransGen below' (image s) u) :
    ∃ t, Relation.ReflTransGen below s t ∧ good t ∧ u = image t := by
  induction h with
  | refl => exact ⟨s, .refl, hs, rfl⟩
  | tail _ hstep ih =>
    obtain ⟨t, hreach, ht, rfl⟩ := ih
    obtain ⟨v, htv, rfl⟩ := (hbelow ht _).mp hstep
    exact ⟨v, hreach.tail htv, hgood ht htv, rfl⟩

/-- **Images show what their states do**, below them too, where they do so step
by step. -/
theorem shownBelow_map_iff (hgood : ∀ ⦃s t⦄, good s → below s t → good t)
    (hbelow : ∀ ⦃s⦄, good s → ∀ u, below' (image s) u ↔ ∃ t, below s t ∧ u = image t)
    (hshows : ∀ ⦃s⦄, good s → ∀ a, shows' (image s) a ↔ shows s a) {s : σ} (hs : good s) (a : α) :
    ShownBelow below' shows' (image s) a ↔ ShownBelow below shows s a := by
  constructor
  · rintro ⟨u, hreach, hu⟩
    obtain ⟨t, hst, ht, rfl⟩ := exists_reflTransGen_of_image image good hgood hbelow hs hreach
    exact ⟨t, hst, (hshows ht a).mp hu⟩
  · rintro ⟨t, hreach, ht⟩
    obtain ⟨hgoodt, himage⟩ := reflTransGen_image image good hgood hbelow hs hreach
    exact ⟨image t, himage, (hshows hgoodt a).mpr ht⟩

end ShownBelow
