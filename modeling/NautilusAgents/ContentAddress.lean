import NautilusAgents.Fixture

/-!
# Content addressing

What the digest of an observation says about its content. The digest hashes
the canonical text of the digest document, and each step of this can be
undone where it matters: the text determines the document, the document the
fields, the hexadecimal digits the hash, and the hash – by assumption, on the
two texts compared – the text. A reference therefore stands for one valid
observation, and a valid observation cannot be changed under its digest.

Refreshing the digest makes it the computed one and touches nothing else, so
that afterwards only the structure of the observation can be wrong.
-/

namespace Observation

section ContentAddress

variable [UuidCrate]

/-- The canonical text determines the digest document. -/
theorem canonical_encode_inj (a b : Observation) :
    (serialize a.digestDocument).canonical.encode = (serialize b.digestDocument).canonical.encode
      ↔ a.digestDocument = b.digestDocument := by
  rw [Json.encode_inj ((LawfulSerde.iJson _).layout Json.layout_canonical)
    ((LawfulSerde.iJson _).layout Json.layout_canonical),
    serialize_layout_inj Json.layout_canonical]

/-- An observation is its digest document and its digest. -/
theorem eq_iff (a b : Observation) :
    a = b ↔ a.digestDocument = b.digestDocument ∧ a.digest = b.digest := by
  cases a
  cases b
  simp only [digestDocument, ObservationDigest.mk.injEq, Observation.mk.injEq]
  tauto

variable [Crates]

/-- Under RFC 8785 the digest is that of the canonical text of the digest
document, and computing it never fails. -/
theorem computedDigest_eq (hcanon : Crates.Rfc8785) (o : Observation) :
    o.computedDigest
      = .ok (Canonical.sha256Bytes (serialize o.digestDocument).canonical.encode) := by
  unfold computedDigest Canonical.sha256 Canonical.toVec
  rw [hcanon _ (LawfulSerde.iJson _)]
  rfl

/-- **One digest, one content**: observations with the same computed digest
have the same digest document. -/
theorem computedDigest_eq_iff (hcanon : Crates.Rfc8785) {a b : Observation}
    (hhash : ∀ x y, Canonical.toVec a.digestDocument = .ok x →
      Canonical.toVec b.digestDocument = .ok y → Crates.NoCollision x y) :
    a.computedDigest = b.computedDigest ↔ a.digestDocument = b.digestDocument := by
  have hnocol := hhash _ _ (hcanon _ (LawfulSerde.iJson a.digestDocument))
    (hcanon _ (LawfulSerde.iJson b.digestDocument))
  constructor
  · intro h
    rw [computedDigest_eq hcanon, computedDigest_eq hcanon, Except.ok.injEq] at h
    exact (canonical_encode_inj a b).mp (hnocol (ContentDigest.new_injective h))
  · intro h
    unfold computedDigest
    rw [h]

/-- **A reference stands for one valid observation.** -/
theorem eq_of_reference_eq (hcanon : Crates.Rfc8785) {a b : Observation}
    (hhash : ∀ x y, Canonical.toVec a.digestDocument = .ok x →
      Canonical.toVec b.digestDocument = .ok y → Crates.NoCollision x y)
    (ha : a.validate = .ok ()) (hb : b.validate = .ok ()) (h : a.digest = b.digest) : a = b := by
  have hda := (a.validate_eq_ok_iff.mp ha).2
  have hdb := (b.validate_eq_ok_iff.mp hb).2
  exact (eq_iff a b).mpr ⟨(computedDigest_eq_iff hcanon hhash).mp (by rw [hda, hdb, h]), h⟩

/-! ## Refreshing the digest -/

/-- Only the digest changes. -/
theorem refreshDigest_snd (o : Observation) :
    ∃ digest, o.refreshDigest.snd = { o with digest := digest } := by
  unfold refreshDigest
  cases o.computedDigest with
  | ok digest => exact ⟨digest, rfl⟩
  | error e => exact ⟨o.digest, rfl⟩

/-- The digest document is not touched. -/
theorem digestDocument_refreshDigest (o : Observation) :
    o.refreshDigest.snd.digestDocument = o.digestDocument := by
  obtain ⟨digest, h⟩ := o.refreshDigest_snd
  rw [h]
  rfl

/-- Nor, then, is the digest computed. -/
theorem computedDigest_refreshDigest (o : Observation) :
    o.refreshDigest.snd.computedDigest = o.computedDigest := by
  rw [computedDigest, digestDocument_refreshDigest, computedDigest]

/-- **Refreshing twice is refreshing once.** -/
theorem refreshDigest_refreshDigest (o : Observation) :
    o.refreshDigest.snd.refreshDigest = o.refreshDigest := by
  rw [refreshDigest, computedDigest_refreshDigest, refreshDigest]
  cases o.computedDigest <;> rfl

/-- An error leaves the observation as it is. -/
theorem refreshDigest_error {o : Observation} {e : ObservationError}
    (h : o.refreshDigest.fst = .error e) : o.refreshDigest.snd = o := by
  rw [refreshDigest] at h ⊢
  cases hd : o.computedDigest with
  | ok digest => rw [hd] at h; cases h
  | error e' => rfl

/-- **No digest mismatch is left** after refreshing. -/
theorem validate_refreshDigest_ne_mismatch (o : Observation) (expected actual : ContentDigest) :
    o.refreshDigest.snd.validate ≠ .error (.digestMismatch expected actual) := by
  intro h
  rw [o.refreshDigest.snd.reports_validate.eq_iff, reports_error_iff] at h
  obtain ⟨before, rule, after, hrules, -, hviolated, herror⟩ := h
  have hmem : rule ∈ o.refreshDigest.snd.rules := by
    rw [hrules]
    exact List.mem_append_right _ List.mem_cons_self
  rw [rules, List.mem_append, List.mem_singleton] at hmem
  rcases hmem with hmem | rfl
  · -- no structural rule is reported as a mismatch
    simp only [structuralRules, payloadRules, List.mem_append, List.mem_cons, List.not_mem_nil,
      or_false, List.mem_flatMap, positionRules, instrumentRules] at hmem
    rcases hmem with (rfl | rfl | rfl) | (rfl | rfl) | ⟨x, -, rfl | rfl | rfl⟩ | ⟨x, -, rfl | rfl⟩
      <;> cases herror
  · -- the digest computed is the one stored, or none is computed
    simp only [computedDigest_refreshDigest] at hviolated
    simp only [digestError, computedDigest_refreshDigest] at herror
    cases hd : o.computedDigest with
    | ok digest =>
      refine hviolated ?_
      unfold refreshDigest
      rw [hd]
    | error e =>
      rw [hd] at herror
      rw [computedDigest] at hd
      cases hs : Canonical.sha256 o.digestDocument with
      | ok digest => rw [hs] at hd; cases hd
      | error message =>
        rw [hs] at hd
        cases hd
        cases herror

/-- The structural conditions do not see the digest. -/
theorem wellStructured_refreshDigest (o : Observation) :
    o.refreshDigest.snd.WellStructured ↔ o.WellStructured := by
  obtain ⟨digest, h⟩ := o.refreshDigest_snd
  rw [h]
  constructor <;> rintro ⟨h1, h2, h3, h4, h5, h6, h7, h8, h9, h10⟩ <;>
    exact ⟨h1, h2, h3, h4, h5, h6, h7, h8, h9, h10⟩

/-- **After refreshing, only the structure can be wrong.** -/
theorem validate_refreshDigest_eq_ok_iff (hcanon : Crates.Rfc8785) (o : Observation) :
    o.refreshDigest.snd.validate = .ok () ↔ o.WellStructured := by
  rw [validate_eq_ok_iff, wellStructured_refreshDigest, computedDigest_refreshDigest]
  refine and_iff_left ?_
  unfold refreshDigest
  rw [computedDigest_eq hcanon]

/-- **Content addressing.** Two observations have the same computed digest
exactly when they agree on every field but the digest; a reference to a valid
observation determines it; a valid observation changed under its digest is
refused; and refreshing changes the digest only, does so once, leaves the
observation alone on an error, and leaves no mismatch behind. -/
theorem content_addressing (hcanon : Crates.Rfc8785) (a b : Observation)
    (hhash : ∀ x y, Canonical.toVec a.digestDocument = .ok x →
      Canonical.toVec b.digestDocument = .ok y → Crates.NoCollision x y) :
    (a.computedDigest = b.computedDigest ↔
      a.version = b.version ∧ a.id = b.id ∧ a.createdAt = b.createdAt ∧
        a.expiresAt = b.expiresAt ∧ a.grant = b.grant ∧ a.provenance = b.provenance ∧
        a.omissions = b.omissions ∧ a.retention = b.retention ∧ a.payload = b.payload) ∧
    (a.validate = .ok () → b.validate = .ok () → (a.reference = b.reference ↔ a = b)) ∧
    (a.validate = .ok () → b.digest = a.digest →
      ¬ (a.version = b.version ∧ a.id = b.id ∧ a.createdAt = b.createdAt ∧
        a.expiresAt = b.expiresAt ∧ a.grant = b.grant ∧ a.provenance = b.provenance ∧
        a.omissions = b.omissions ∧ a.retention = b.retention ∧ a.payload = b.payload) →
      b.validate ≠ .ok ()) ∧
    (∃ digest, a.refreshDigest.snd = { a with digest := digest }) ∧
    a.refreshDigest.snd.refreshDigest = a.refreshDigest ∧
    (∀ e, a.refreshDigest.fst = .error e → a.refreshDigest.snd = a) ∧
    (∀ expected actual,
      a.refreshDigest.snd.validate ≠ .error (.digestMismatch expected actual)) ∧
    (a.refreshDigest.snd.validate = .ok () ↔ a.WellStructured) := by
  have hfields : a.digestDocument = b.digestDocument ↔
      a.version = b.version ∧ a.id = b.id ∧ a.createdAt = b.createdAt ∧
        a.expiresAt = b.expiresAt ∧ a.grant = b.grant ∧ a.provenance = b.provenance ∧
        a.omissions = b.omissions ∧ a.retention = b.retention ∧ a.payload = b.payload := by
    unfold digestDocument
    rw [ObservationDigest.mk.injEq]
  rw [← hfields]
  refine ⟨computedDigest_eq_iff hcanon hhash, fun ha hb => ⟨fun h => ?_, fun h => by rw [h]⟩,
    fun ha hdigest hne hb => hne ?_, a.refreshDigest_snd, a.refreshDigest_refreshDigest,
    fun e => refreshDigest_error, a.validate_refreshDigest_ne_mismatch,
    a.validate_refreshDigest_eq_ok_iff hcanon⟩
  · exact eq_of_reference_eq hcanon hhash ha hb (congrArg ObservationRef.digest h)
  · rw [eq_of_reference_eq hcanon hhash ha hb hdigest.symm]

end ContentAddress

open Fixture in
/-- The fixture with another retention class under the same digest is
refused. -/
theorem content_addressing_tampered :
    ({ observation with retention := .referenceOnly } : Observation).validate ≠ .ok () := by
  refine (content_addressing rfc8785 observation
    { observation with retention := .referenceOnly } ?_).2.2.1 validate_observation rfl ?_
  · -- the two texts have different hashes
    intro x y hx hy hsame
    rw [Canonical.toVec, rfc8785 _ (LawfulSerde.iJson _), Except.ok.injEq] at hx hy
    subst hx hy
    by_contra hne
    have hx : Crates.sha256 (serialize observation.digestDocument).canonical.encode = hash :=
      if_pos rfl
    rw [hx] at hsame
    exact absurd (hsame.trans (if_neg (fun h => hne h.symm))) (by decide)
  · rintro ⟨-, -, -, -, -, -, -, h, -⟩
    cases h

end Observation
