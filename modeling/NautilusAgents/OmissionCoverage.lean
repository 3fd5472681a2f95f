import NautilusAgents.Advisory

/-!
# Which omissions matter

An observation says by JSON pointer what it leaves out, and the advisory checks
ask of each pointer whether it withholds something a reduction is checked
against. What they ask is a matter of prefixes: the part of a document that a
pointer designates holds a field exactly when the pointer's tokens start the
field's.

The code does not test for prefixes. It splits the text at its slashes and
matches the pieces against lists of one length at a time, from `payload` down
to the fields. On the tokens of a pointer that comes to the same, with one
exception: the empty pointer, which designates the whole document, has no
pieces and no case (`FieldPath.omissionIsRequired_iff`).
-/

open JsonPointer

namespace FieldPath

/-! ## Coverage -/

/-- **The fields the checks of a reduction read**: the identities and the
quantity of a position view, the identity and the increment of an instrument
view. -/
def ReadByReduction (field : List Token) : Prop :=
  (∃ token, ∃ name ∈ ["position_id", "instrument_id", "quantity"],
    field = ["payload".toList, "live".toList, "positions".toList, token, name.toList]) ∨
  ∃ token, ∃ name ∈ ["instrument_id", "quantity_increment"],
    field = ["payload".toList, "live".toList, "instruments".toList, token, name.toList]

/-- **What a pointer designates holds a field the checks read.** -/
def Covers (tokens : List Token) : Prop := ∃ field, ReadByReduction field ∧ tokens <+: field

theorem Covers.mono {ancestor tokens : List Token} (h : Covers tokens)
    (hstart : ancestor <+: tokens) : Covers ancestor := by
  obtain ⟨field, hread, hfield⟩ := h
  exact ⟨field, hread, hstart.trans hfield⟩

theorem pathSegments_eq (p : FieldPath) :
    pathSegments p.text = p.tokens.map (fun t => String.ofList (escaped t)) := by
  unfold pathSegments
  rw [← p.spell_tokens, splitOn_spell, List.map_cons, List.drop_one, List.tail_cons, List.map_map]
  rfl

/-- A token is written as it is where nothing in it needs an escape. -/
theorem ofList_escaped_eq_iff {name : String} (h : escaped name.toList = name.toList) (t : Token) :
    String.ofList (escaped t) = name ↔ t = name.toList := by
  constructor
  · intro heq
    refine escaped_injective ?_
    rw [h, ← heq, String.toList_ofList]
  · rintro rfl
    rw [h, String.ofList_toList]

theorem covers_position (token : Token) {name : String}
    (h : name ∈ ["position_id", "instrument_id", "quantity"]) :
    Covers ["payload".toList, "live".toList, "positions".toList, token, name.toList] :=
  ⟨_, Or.inl ⟨token, name, h, rfl⟩, List.prefix_refl _⟩

theorem covers_instrument (token : Token) {name : String}
    (h : name ∈ ["instrument_id", "quantity_increment"]) :
    Covers ["payload".toList, "live".toList, "instruments".toList, token, name.toList] :=
  ⟨_, Or.inr ⟨token, name, h, rfl⟩, List.prefix_refl _⟩

/-- **Each case of the match is a prefix of a field.** -/
theorem covers_of_omissionIsRequired {p : FieldPath} (h : omissionIsRequired p.text = true) :
    p.tokens ≠ [] ∧ Covers p.tokens := by
  have hpayload := ofList_escaped_eq_iff (show escaped "payload".toList = _ from rfl)
  have hlive := ofList_escaped_eq_iff (show escaped "live".toList = _ from rfl)
  have hpositions := ofList_escaped_eq_iff (show escaped "positions".toList = _ from rfl)
  have hinstruments := ofList_escaped_eq_iff (show escaped "instruments".toList = _ from rfl)
  unfold omissionIsRequired at h
  rw [pathSegments_eq] at h
  generalize p.tokens = ts at h ⊢
  have hposition (token : Token) :=
    covers_position token (show "quantity" ∈ ["position_id", "instrument_id", "quantity"] by simp)
  have hinstrument (token : Token) :=
    covers_instrument token
      (show "instrument_id" ∈ ["instrument_id", "quantity_increment"] by simp)
  split at h <;> rename_i heq
  all_goals simp only [List.map_eq_cons_iff, List.map_eq_nil_iff, hpayload, hlive, hpositions,
    hinstruments] at heq
  · obtain ⟨_, _, rfl, rfl, rfl⟩ := heq
    exact ⟨by simp, (hposition []).mono (by simp)⟩
  · obtain ⟨_, _, rfl, rfl, _, _, rfl, rfl, rfl⟩ := heq
    exact ⟨by simp, (hposition []).mono (by simp)⟩
  · obtain ⟨_, _, rfl, rfl, _, _, rfl, rfl, _, _, rfl, rfl, rfl⟩ := heq
    exact ⟨by simp, (hposition []).mono (by simp)⟩
  · obtain ⟨_, _, rfl, rfl, _, _, rfl, rfl, _, _, rfl, rfl, rfl⟩ := heq
    exact ⟨by simp, (hinstrument []).mono (by simp)⟩
  · obtain ⟨_, _, rfl, rfl, _, _, rfl, rfl, _, _, rfl, rfl, token, _, rfl, -, rfl⟩ := heq
    exact ⟨by simp, (hposition token).mono (by simp)⟩
  · obtain ⟨_, _, rfl, rfl, _, _, rfl, rfl, _, _, rfl, rfl, token, _, rfl, -, rfl⟩ := heq
    exact ⟨by simp, (hinstrument token).mono (by simp)⟩
  · obtain ⟨_, _, rfl, rfl, _, _, rfl, rfl, _, _, rfl, rfl, token, _, rfl, -, field, _, rfl,
      rfl, rfl⟩ := heq
    rw [Bool.or_eq_true, Bool.or_eq_true, beq_iff_eq, beq_iff_eq, beq_iff_eq] at h
    refine ⟨by simp, ?_⟩
    rcases h with (h | h) | h <;> rw [(ofList_escaped_eq_iff rfl field).mp h] <;>
      exact covers_position token (by simp)
  · obtain ⟨_, _, rfl, rfl, _, _, rfl, rfl, _, _, rfl, rfl, token, _, rfl, -, field, _, rfl,
      rfl, rfl⟩ := heq
    rw [Bool.or_eq_true, beq_iff_eq, beq_iff_eq] at h
    refine ⟨by simp, ?_⟩
    rcases h with h | h <;> rw [(ofList_escaped_eq_iff rfl field).mp h] <;>
      exact covers_instrument token (by simp)
  · cases h

/-- **And each prefix of a field is a case of the match**, if it is not
empty. -/
theorem omissionIsRequired_of_covers {p : FieldPath} (hne : p.tokens ≠ [])
    (h : Covers p.tokens) : omissionIsRequired p.text = true := by
  unfold omissionIsRequired
  rw [pathSegments_eq]
  generalize p.tokens = ts at hne h ⊢
  obtain ⟨field, hread, hstart⟩ := h
  -- five tokens have six prefixes, and only the whole field has a last token to test
  rcases hread with ⟨token, name, hname, rfl⟩ | ⟨token, name, hname, rfl⟩ <;>
    simp only [List.prefix_cons_iff, List.prefix_nil] at hstart <;>
    obtain rfl | ⟨_, rfl, rfl | ⟨_, rfl, rfl | ⟨_, rfl, rfl | ⟨_, rfl, rfl | ⟨_, rfl, rfl⟩⟩⟩⟩⟩ :=
      hstart
  all_goals first | exact absurd rfl hne | rfl | skip
  · simp only [List.mem_cons, List.not_mem_nil, or_false] at hname
    rcases hname with rfl | rfl | rfl <;> rfl
  · simp only [List.mem_cons, List.not_mem_nil, or_false] at hname
    rcases hname with rfl | rfl <;> rfl

/-- The pieces are matched where a prefix is meant, except that there must be
one. -/
theorem omissionIsRequired_iff (p : FieldPath) :
    omissionIsRequired p.text = true ↔ p.tokens ≠ [] ∧ Covers p.tokens :=
  ⟨covers_of_omissionIsRequired, fun h => omissionIsRequired_of_covers h.1 h.2⟩

/-- **What an omission withholds.** The test agrees with coverage on every
field path but one, the path of the whole document; and from a path that is
required, the test answers yes on every ancestor but that one. -/
theorem omissionIsRequired_covers_iff (p : FieldPath) :
    ((omissionIsRequired p.text = true ↔ Covers p.tokens) ↔ p.text ≠ "") ∧
      ∀ ancestor : FieldPath, omissionIsRequired p.text = true → ancestor.tokens <+: p.tokens →
        (omissionIsRequired ancestor.text = true ↔ ancestor.text ≠ "") := by
  have hroot : Covers [] := (covers_position [] List.mem_cons_self).mono List.nil_prefix
  constructor
  · rw [omissionIsRequired_iff, ne_eq, ne_eq, ← tokens_eq_nil_iff]
    constructor
    · intro h hnil
      rw [hnil] at h
      exact (h.mpr hroot).1 rfl
    · intro hne
      exact and_iff_right hne
  · intro ancestor hp hstart
    rw [omissionIsRequired_iff] at hp
    rw [omissionIsRequired_iff, ne_eq, ne_eq, ← tokens_eq_nil_iff]
    exact and_iff_left (hp.2.mono hstart)

/-- **The whole document** holds every field the checks read, and an omission
of it is not required. -/
theorem whole_document_not_required :
    ¬ (omissionIsRequired (FieldPath.mk "" rfl).text = true ↔
      Covers (FieldPath.mk "" rfl).tokens) := by
  intro h
  have hroot : Covers (FieldPath.mk "" rfl).tokens :=
    (covers_position [] List.mem_cons_self).mono List.nil_prefix
  exact absurd (h.mpr hroot) (by decide)

end FieldPath
