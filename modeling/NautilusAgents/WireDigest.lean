import NautilusAgents.CanonicalForm
import NautilusAgents.ContentAddress
import NautilusAgents.DocumentGrammar
import NautilusAgents.FieldList

/-!
# The digest on the wire

The digest of an observation is computed from a struct of its own, which lists
the fields of the observation again, without the digest. A peer has no such
struct: it has a document, with its members in some order, and can leave out
the member `digest` and hash the canonical text of the rest.

The two agree (`Observation.digest_on_the_wire`): the rest of the document, in
any member order, has the canonical text of the struct. So a peer that checks
the raw document refuses what validation refuses, and the column
`digest_covered` of the field list says just which members the digest depends
on.
-/

open Serde

namespace Json

/-- Leaving a member out of an object laid out. -/
theorem canonical_eraseMember_layout {f : Json → Json} (hf : Layout f) {j : Json} (h : IJson j)
    (name : String) :
    canonical (eraseMember name (f j)) = canonical (eraseMember name j) := by
  cases h with
  | null => rw [hf.null]
  | bool => rw [hf.bool]
  | nat => rw [hf.nat]
  | str => rw [hf.str]
  | arr h =>
    show canonical (eraseMember name (f (.arr _))) = canonical (.arr _)
    rw [← canonical_layout hf (.arr h), hf.arr]
    rfl
  | @obj ms hnd h =>
    obtain ⟨ms', heq, hperm⟩ := hf.obj ms
    rw [heq]
    refine canonical_obj_eq_of_perm ?_ ?_ (fun m hm => canonical_layout hf (h m ?_))
    · have hfilter := hperm.filter (fun m => decide (m.fst ≠ name))
      rwa [List.filter_map] at hfilter
    · exact hnd.sublist (List.filter_sublist.map Prod.fst)
    · exact (List.mem_filter.mp hm).1

theorem iJson_eraseMember {j : Json} (h : IJson j) (name : String) :
    (eraseMember name j).IJson := by
  cases h with
  | obj hnd h =>
    exact .obj (hnd.sublist (List.filter_sublist.map Prod.fst))
      (fun m hm => h m (List.mem_filter.mp hm).1)
  | null => exact .null
  | bool b => exact .bool b
  | nat h => exact .nat h
  | str s => exact .str s
  | arr h => exact .arr h

/-- The other members stay. -/
theorem member_eraseMember {name other : String} (hne : other ≠ name) (j : Json) :
    (eraseMember name j).member other = j.member other := by
  cases j with
  | obj ms =>
    show (ms.filter (fun m => decide (m.fst ≠ name))).lookup other = ms.lookup other
    induction ms with
    | nil => rfl
    | cons m ms ih =>
      obtain ⟨key, value⟩ := m
      rw [List.filter_cons, List.lookup_cons]
      by_cases hkey : key = name
      · subst hkey
        rw [if_neg (by simp), beq_false_of_ne hne]
        exact ih
      · rw [if_pos (by simpa using hkey), List.lookup_cons, ih]
  | _ => rfl

/-- **An object is its members by name.** -/
theorem eq_of_lookup_eq {ms ms' : List (String × Json)}
    (hnames : ms.map Prod.fst = ms'.map Prod.fst) (hnd : (ms.map Prod.fst).Nodup)
    (h : ∀ name ∈ ms.map Prod.fst, ms.lookup name = ms'.lookup name) : ms = ms' := by
  induction ms generalizing ms' with
  | nil => exact (List.map_eq_nil_iff.mp hnames.symm).symm
  | cons m ms ih =>
    cases ms' with
    | nil => cases hnames
    | cons m' ms' =>
      obtain ⟨key, value⟩ := m
      obtain ⟨key', value'⟩ := m'
      obtain ⟨rfl, hrest⟩ := List.cons_eq_cons.mp hnames
      rw [List.map_cons, List.nodup_cons] at hnd
      have hvalue := h key List.mem_cons_self
      rw [List.lookup_cons_self, List.lookup_cons_self, Option.some.injEq] at hvalue
      rw [hvalue, ih hrest hnd.2 (fun name hname => ?_)]
      have hne : (name == key) = false := beq_false_of_ne (fun heq => hnd.1 (heq ▸ hname))
      have hlookup := h name (List.mem_cons_of_mem _ hname)
      rwa [List.lookup_cons, List.lookup_cons, hne] at hlookup

end Json

namespace Observation

/-- What the field list says of the members of an observation. -/
theorem fieldDigestCovered_observation {name : String} {required : Bool} :
    ContractSchema.fieldDigestCovered ⟨"Observation", "Observation", name, required⟩ = true
      ↔ name ≠ "digest" := by
  simp [ContractSchema.fieldDigestCovered]

variable [UuidCrate]

/-- **The document the digest covers** is that of the observation without the
member `digest`. -/
theorem eraseMember_serialize (o : Observation) :
    Json.eraseMember "digest" (serialize o) = serialize o.digestDocument := rfl

/-- The member `digest` of an observation laid out is its digest. -/
theorem member_digest_layout {f : Json → Json} (hf : Json.Layout f) (o : Observation) :
    (f (serialize o)).member "digest" = some (.str o.digest.text) := by
  have hmember := hf.member (Json.iJson_obj.mp (LawfulSerde.iJson o)).1 "digest"
  exact hmember.trans (congrArg some (hf.str _))

/-- **The digest document is the covered members.** -/
theorem digestDocument_eq_iff (a b : Observation) :
    a.digestDocument = b.digestDocument ↔ ∀ name required,
      ContractSchema.fieldDigestCovered ⟨"Observation", "Observation", name, required⟩ = true →
        (serialize a).member name = (serialize b).member name := by
  simp only [fieldDigestCovered_observation]
  constructor
  · intro h name required hne
    rw [← Json.member_eraseMember hne (serialize a), ← Json.member_eraseMember hne (serialize b),
      eraseMember_serialize, eraseMember_serialize, h]
  · intro h
    refine (serialize_layout_inj Json.layout_id).mp (congrArg Json.obj ?_)
    refine Json.eq_of_lookup_eq ?_ ?_ (fun name hname => ?_)
    · rw [structMembers_names, structMembers_names]
    · rw [structMembers_names]
      exact Struct.nodup_names
    · have hdigest : "digest" ∉ Struct.names ObservationDigest := by
        show "digest" ∉ ["version", "id", "created_at", "expires_at", "grant", "provenance",
          "omissions", "retention", "payload"]
        decide
      rw [structMembers_names] at hname
      have hne : name ≠ "digest" := fun heq => hdigest (heq ▸ hname)
      have hmembers := h name true hne
      rwa [← Json.member_eraseMember hne (serialize a), ← Json.member_eraseMember hne (serialize b),
        eraseMember_serialize, eraseMember_serialize] at hmembers

variable [Crates]

/-- **What a peer checks of a document**: the member `digest` is the hash of the
canonical text of the rest. -/
def RawDigestMatches (j : Json) : Prop :=
  ∃ bytes, Crates.canonicalToVec (Json.eraseMember "digest" j) = .ok bytes
    ∧ j.member "digest" = some (.str (Canonical.sha256Bytes bytes).text)

/-- The rest of the document, in any member order, has the canonical text of the
digest document. -/
theorem canonicalToVec_eraseMember (hcanon : Crates.Rfc8785) {f : Json → Json}
    (hf : Json.Layout f) (o : Observation) :
    Crates.canonicalToVec (Json.eraseMember "digest" (f (serialize o)))
      = Canonical.toVec o.digestDocument := by
  have hjson : (serialize o).IJson := LawfulSerde.iJson o
  unfold Canonical.toVec
  rw [hcanon _ (Json.iJson_eraseMember (hjson.layout hf) _), hcanon _ (LawfulSerde.iJson _),
    Json.canonical_eraseMember_layout hf hjson, eraseMember_serialize]

/-- **The digest on the wire.** Leaving the member `digest` out of the document
of an observation, in any member order, leaves the canonical text that the
digest is computed from. A peer that checks the raw document this way, beside
the structure, accepts what validation accepts; and two observations have the
same computed digest exactly when they agree in the members that the field list
says are covered. -/
theorem digest_on_the_wire (hcanon : Crates.Rfc8785) (a b : Observation)
    (hhash : ∀ x y, Canonical.toVec a.digestDocument = .ok x →
      Canonical.toVec b.digestDocument = .ok y → Crates.NoCollision x y) :
    (∀ f, Json.Layout f →
      Crates.canonicalToVec (Json.eraseMember "digest" (f (serialize a)))
        = Canonical.toVec a.digestDocument
      ∧ (a.validate = .ok () ↔ a.WellStructured ∧ RawDigestMatches (f (serialize a))))
    ∧ (a.computedDigest = b.computedDigest ↔ ∀ name required,
      ContractSchema.fieldDigestCovered ⟨"Observation", "Observation", name, required⟩ = true →
        (serialize a).member name = (serialize b).member name) := by
  refine ⟨fun f hf => ⟨canonicalToVec_eraseMember hcanon hf a, ?_⟩, ?_⟩
  · rw [validate_eq_ok_iff]
    refine and_congr Iff.rfl ?_
    have htext : Canonical.toVec a.digestDocument
        = .ok (serialize a.digestDocument).canonical.encode := hcanon _ (LawfulSerde.iJson _)
    unfold RawDigestMatches
    rw [computedDigest_eq hcanon, canonicalToVec_eraseMember hcanon hf, htext,
      member_digest_layout hf, Except.ok.injEq]
    constructor
    · intro hsame
      exact ⟨_, rfl, by rw [hsame]⟩
    · rintro ⟨bytes, hbytes, hmember⟩
      obtain rfl := Except.ok.inj hbytes
      exact (ContentDigest.ext (Json.str.inj (Option.some.inj hmember))).symm
  · rw [computedDigest_eq_iff hcanon hhash, digestDocument_eq_iff]

end Observation

open Fixture in
/-- The fixture passes the check of the raw document, and an observation with
another digest has the same computed one. -/
theorem Observation.digest_on_the_wire_fixture :
    Observation.RawDigestMatches (serialize observation).canonical
      ∧ ({ observation with digest := .new (Vector.replicate 32 0) } : Observation).computedDigest
        = observation.computedDigest := by
  obtain ⟨hlayout, hcovered⟩ := Observation.digest_on_the_wire rfc8785 observation
    { observation with digest := .new (Vector.replicate 32 0) } (by
      intro x y hx hy _
      rw [Canonical.toVec, rfc8785 _ (LawfulSerde.iJson _), Except.ok.injEq] at hx hy
      rw [← hx, ← hy]
      rfl)
  refine ⟨(((hlayout _ Json.layout_canonical).2).mp validate_observation).2, ?_⟩
  refine (hcovered.mpr (fun name required hname => ?_)).symm
  have hdocument : observation.digestDocument = ({ observation with
    digest := .new (Vector.replicate 32 0) } : Observation).digestDocument := rfl
  exact (Observation.digestDocument_eq_iff _ _).mp hdocument name required hname
