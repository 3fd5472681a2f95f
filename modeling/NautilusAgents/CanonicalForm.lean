import NautilusAgents.Json
import NautilusAgents.PrefixCode

/-!
# One canonical form

Sorting the members of every object gives a document one form, whatever order
its members came in: a layout of a document has the canonical form of the
document (`Json.canonical_layout`).

Sorting settles an order only where no two members compare alike, so the names
must be told apart by what they are compared by. Names are compared by their
UTF-16 code units, and these determine the name: a character outside the basic
plane starts with a surrogate, which no other character is
(`Json.prefixFree_utf16`).
-/

namespace Json

/-! ## Code units -/

/-- A character is not a surrogate. -/
theorem toNat_not_surrogate (c : Char) : c.toNat < 0xD800 ∨ 0xDFFF < c.toNat ∧ c.toNat < 0x110000 :=
  c.valid

/-- **Code units tell characters apart**, whatever follows. -/
theorem prefixFree_utf16 : PrefixFree utf16 := by
  intro c d xs ys h
  have hc := toNat_not_surrogate c
  have hd := toNat_not_surrogate d
  have hinj : c.toNat = d.toNat → c = d := fun heq => Char.toNat_inj.mp heq
  unfold utf16 at h
  by_cases hcs : c.toNat < 0x10000 <;> by_cases hds : d.toNat < 0x10000
  · rw [if_pos hcs, if_pos hds] at h
    obtain ⟨hhead, htail⟩ := List.cons_eq_cons.mp h
    exact ⟨hinj hhead, htail⟩
  · rw [if_pos hcs, if_neg hds] at h
    obtain ⟨hhead, -⟩ := List.cons_eq_cons.mp h
    omega
  · rw [if_neg hcs, if_pos hds] at h
    obtain ⟨hhead, -⟩ := List.cons_eq_cons.mp h
    omega
  · rw [if_neg hcs, if_neg hds] at h
    obtain ⟨hhigh, htail⟩ := List.cons_eq_cons.mp h
    obtain ⟨hlow, htail⟩ := List.cons_eq_cons.mp htail
    exact ⟨hinj (by omega), htail⟩

theorem utf16_ne_nil (c : Char) : utf16 c ≠ [] := by
  unfold utf16
  by_cases hc : c.toNat < 0x10000
  · rw [if_pos hc]
    exact List.cons_ne_nil _ _
  · rw [if_neg hc]
    exact List.cons_ne_nil _ _

/-- The code units of a text. -/
def units (name : String) : List ℕ := name.toList.flatMap utf16

/-- **Code units tell texts apart.** -/
theorem units_injective : Function.Injective units := by
  intro a b h
  exact String.toList_inj.mp (prefixFree_utf16.flatMap_injective utf16_ne_nil h)

/-! ## Sorting members -/

theorem nameLE_iff (a b : String × Json) : nameLE a b = true ↔ units a.fst ≤ units b.fst :=
  decide_eq_true_iff

instance : Std.Total (fun a b : String × Json => nameLE a b = true) where
  total a b := by
    rw [nameLE_iff, nameLE_iff]
    exact le_total _ _

instance : IsTrans (String × Json) (fun a b => nameLE a b = true) where
  trans a b c hab hbc := by
    rw [nameLE_iff] at hab hbc ⊢
    exact hab.trans hbc

/-- **Members with distinct names have one order.** -/
theorem insertionSort_eq_of_perm {ms ms' : List (String × Json)} (hperm : ms.Perm ms')
    (hnd : (ms.map Prod.fst).Nodup) :
    ms.insertionSort (fun a b => nameLE a b) = ms'.insertionSort (fun a b => nameLE a b) := by
  have hsorted := List.pairwise_insertionSort (fun a b : String × Json => nameLE a b = true)
  have hms := List.perm_insertionSort (fun a b : String × Json => nameLE a b = true) ms
  have hms' := List.perm_insertionSort (fun a b : String × Json => nameLE a b = true) ms'
  refine List.Perm.eq_of_pairwise (fun a b ha hb hab hba => ?_) (hsorted ms) (hsorted ms')
    (hms.trans (hperm.trans hms'.symm))
  rw [nameLE_iff] at hab hba
  have hname : a.fst = b.fst := units_injective (le_antisymm hab hba)
  exact List.inj_on_of_nodup_map hnd (hms.mem_iff.mp ha)
    (hperm.mem_iff.mpr (hms'.mem_iff.mp hb)) hname

/-! ## Layouts of one document -/

/-- **Members in another order**, with values that have the same canonical form,
make an object of the same canonical form. -/
theorem canonical_obj_eq_of_perm {ms ms' : List (String × Json)} {f : Json → Json}
    (hperm : ms'.Perm (ms.map (fun m => (m.fst, f m.snd)))) (hnd : (ms.map Prod.fst).Nodup)
    (hvalues : ∀ m ∈ ms, canonical (f m.snd) = canonical m.snd) :
    canonical (.obj ms') = canonical (.obj ms) := by
  rw [canonical, canonical, canonicalMembers_eq_map, canonicalMembers_eq_map]
  refine congrArg Json.obj (insertionSort_eq_of_perm ?_ ?_)
  · have hmap := hperm.map (fun m : String × Json => (m.fst, canonical m.snd))
    rw [List.map_map] at hmap
    have hsame : ms.map ((fun m : String × Json => (m.fst, canonical m.snd)) ∘
        fun m => (m.fst, f m.snd)) = ms.map (fun m => (m.fst, canonical m.snd)) :=
      List.map_congr_left (fun m hm => Prod.ext rfl (hvalues m hm))
    rwa [hsame] at hmap
  · have hkeys := hperm.map Prod.fst
    rw [List.map_map] at hkeys ⊢
    exact hkeys.nodup_iff.mpr hnd

/-- **A layout does not show in the canonical form.** -/
theorem canonical_layout {f : Json → Json} (hf : Layout f) {j : Json} (h : IJson j) :
    canonical (f j) = canonical j := by
  induction h with
  | null => rw [hf.null]
  | bool b => rw [hf.bool]
  | nat => rw [hf.nat]
  | str s => rw [hf.str]
  | @arr items h ih =>
    rw [hf.arr, canonical, canonical, canonicalItems_eq_map, canonicalItems_eq_map, List.map_map]
    exact congrArg Json.arr (List.map_congr_left ih)
  | @obj ms hnd h ih =>
    obtain ⟨ms', heq, hperm⟩ := hf.obj ms
    rw [heq]
    exact canonical_obj_eq_of_perm hperm hnd ih

end Json
