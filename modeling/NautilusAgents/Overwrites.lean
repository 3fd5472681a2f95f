import Mathlib

/-!
# Overwrites

Writes to a state of which each replaces one part. A write takes the place of
one to the same part before it, and two to different parts can change places
(`Overwrites`). That is all a chain of setters is, and it is enough to say what
a list of writes leaves: what the last write to each part has left there
(`Overwrites.applyAll_lastWrites`), in whatever order those are made
(`Overwrites.applyAll_perm`), and every other part as it was
(`Overwrites.applyAll_apply`).

A part need not be looked at for this. That a state holds what a write would put
there is that the write does not change it.
-/

variable {σ κ α : Type}

/-- Make writes one after another. -/
def applyAll (apply : σ → α → α) (writes : List σ) (a : α) : α :=
  writes.foldl (fun a write => apply write a) a

/-- The last write to each part. -/
def lastWrites [DecidableEq κ] (part : σ → κ) : List σ → List σ
  | [] => []
  | write :: writes =>
    if part write ∈ writes.map part then lastWrites part writes
    else write :: lastWrites part writes

/-- **Each write replaces one part.** -/
structure Overwrites (apply : σ → α → α) (part : σ → κ) : Prop where
  /-- A write hides one to the same part before it. -/
  absorb : ∀ s t a, part s = part t → apply s (apply t a) = apply s a
  /-- Writes to different parts may come in either order. -/
  comm : ∀ s t a, part s ≠ part t → apply s (apply t a) = apply t (apply s a)

section LastWrites

variable [DecidableEq κ] {part : σ → κ} {writes : List σ} {s : σ}

/-- **A last write is one behind which its part is not written again.** -/
theorem mem_lastWrites_iff : s ∈ lastWrites part writes ↔
    ∃ before after, writes = before ++ s :: after ∧ part s ∉ after.map part := by
  induction writes with
  | nil => simp [lastWrites]
  | cons write writes ih =>
    have htail : (∃ before after, write :: writes = before ++ s :: after ∧
        part s ∉ after.map part) ↔ (write = s ∧ part s ∉ writes.map part) ∨
          ∃ before after, writes = before ++ s :: after ∧ part s ∉ after.map part := by
      constructor
      · rintro ⟨before, after, hwrites, hafter⟩
        cases before with
        | nil =>
          obtain ⟨rfl, rfl⟩ := List.cons_eq_cons.mp hwrites
          exact .inl ⟨rfl, hafter⟩
        | cons first before =>
          obtain ⟨-, hrest⟩ := List.cons_eq_cons.mp hwrites
          exact .inr ⟨before, after, hrest, hafter⟩
      · rintro (⟨rfl, hafter⟩ | ⟨before, after, rfl, hafter⟩)
        · exact ⟨[], writes, rfl, hafter⟩
        · exact ⟨write :: before, after, rfl, hafter⟩
    rw [htail, lastWrites, ← ih]
    by_cases hagain : part write ∈ writes.map part
    · rw [if_pos hagain]
      refine (or_iff_right ?_).symm
      rintro ⟨rfl, hnot⟩
      exact hnot hagain
    · rw [if_neg hagain, List.mem_cons]
      refine or_congr ⟨?_, ?_⟩ Iff.rfl
      · rintro rfl
        exact ⟨rfl, hagain⟩
      · rintro ⟨rfl, -⟩
        rfl

theorem part_mem_of_mem_lastWrites (h : s ∈ lastWrites part writes) :
    part s ∈ writes.map part := by
  obtain ⟨before, after, rfl, -⟩ := mem_lastWrites_iff.mp h
  exact List.mem_map_of_mem (List.mem_append_right _ List.mem_cons_self)

/-- No part is written twice. -/
theorem nodup_lastWrites (part : σ → κ) (writes : List σ) :
    ((lastWrites part writes).map part).Nodup := by
  induction writes with
  | nil => exact List.nodup_nil
  | cons write writes ih =>
    unfold lastWrites
    by_cases hagain : part write ∈ writes.map part
    · rw [if_pos hagain]
      exact ih
    · rw [if_neg hagain, List.map_cons, List.nodup_cons]
      refine ⟨fun hmem => hagain ?_, ih⟩
      obtain ⟨t, ht, hpart⟩ := List.mem_map.mp hmem
      exact hpart ▸ part_mem_of_mem_lastWrites ht

end LastWrites

namespace Overwrites

variable {apply : σ → α → α} {part : σ → κ} (h : Overwrites apply part)
include h

/-- **A write changes places** with writes to other parts. -/
theorem applyAll_apply {writes : List σ} {s : σ} (hs : part s ∉ writes.map part) (a : α) :
    applyAll apply writes (apply s a) = apply s (applyAll apply writes a) := by
  induction writes generalizing a with
  | nil => rfl
  | cons write writes ih =>
    rw [List.map_cons, List.mem_cons, not_or] at hs
    show applyAll apply writes (apply write (apply s a)) = _
    rw [h.comm write s a (Ne.symm hs.1)]
    exact ih hs.2 (apply write a)

/-- **A write that is followed by one to its part** leaves nothing. -/
theorem applyAll_absorb {writes : List σ} {s : σ} (hs : part s ∈ writes.map part) (a : α) :
    applyAll apply writes (apply s a) = applyAll apply writes a := by
  induction writes generalizing a with
  | nil => exact absurd hs List.not_mem_nil
  | cons write writes ih =>
    show applyAll apply writes (apply write (apply s a)) = applyAll apply writes (apply write a)
    by_cases hpart : part write = part s
    · rw [h.absorb write s a hpart]
    · rw [h.comm write s a hpart]
      refine ih ?_ (apply write a)
      exact (List.mem_cons.mp hs).resolve_left (Ne.symm hpart)

/-- **Only the last writes count.** The induction is on the writes, over every
state. -/
theorem applyAll_lastWrites [DecidableEq κ] (writes : List σ) (a : α) :
    applyAll apply (lastWrites part writes) a = applyAll apply writes a := by
  induction writes generalizing a with
  | nil => rfl
  | cons write writes ih =>
    unfold lastWrites
    by_cases hagain : part write ∈ writes.map part
    · rw [if_pos hagain, ih]
      exact (h.applyAll_absorb hagain a).symm
    · rw [if_neg hagain]
      exact ih (apply write a)

/-- **The order of writes to different parts does not matter.** -/
theorem applyAll_perm {writes writes' : List σ} (hperm : writes.Perm writes')
    (hnd : (writes.map part).Nodup) (a : α) :
    applyAll apply writes a = applyAll apply writes' a := by
  refine hperm.foldl_eq' (fun s hs t ht b => ?_) a
  by_cases hpart : part s = part t
  · rw [List.inj_on_of_nodup_map hnd hs ht hpart]
  · exact h.comm t s b (Ne.symm hpart)

/-- **What the last write to a part puts there, is there.** -/
theorem apply_applyAll_of_mem [DecidableEq κ] {writes : List σ} {s : σ}
    (hs : s ∈ lastWrites part writes) (a : α) :
    apply s (applyAll apply writes a) = applyAll apply writes a := by
  obtain ⟨before, after, rfl, hafter⟩ := mem_lastWrites_iff.mp hs
  unfold applyAll
  rw [List.foldl_append, List.foldl_cons]
  generalize before.foldl (fun a write => apply write a) a = b
  have hput := h.applyAll_apply hafter (apply s b)
  rw [h.absorb s s b rfl] at hput
  exact hput.symm

end Overwrites
