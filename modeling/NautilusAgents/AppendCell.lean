import Mathlib

/-!
# Appending by read and replace

Clients append to a shared cell in two steps: each reads the cell, and later
replaces it by what it read with its own entry at the end. Nothing keeps the
two steps of one client together, so another may replace the cell in between
and be overwritten.

An interleaving is the list of these events, and the cell is the log of the
entries it holds. Whatever the interleaving, the log is a sublist of the
commits in their order (`log_sublist_commits`): nothing is torn, invented,
doubled or reordered. And nothing is lost exactly when no commit falls between
another client's read and its commit (`log_eq_commits_iff`).
-/

namespace AppendCell

variable {ι : Type}

/-- A client reads the cell, or replaces it. -/
inductive Event (ι : Type) where
  | read (client : ι)
  | commit (client : ι)
  deriving DecidableEq

/-- The client of an event. -/
def Event.client : Event ι → ι
  | read client => client
  | commit client => client

/-- **The cell**: the clients whose entries it holds, in order, and what each
client has read. -/
structure Cell (ι : Type) where
  /-- The entries, oldest first. -/
  log : List ι
  /-- What each client last read. -/
  snapshot : ι → List ι

/-- The clients that have committed, in order. -/
def commits : List (Event ι) → List ι
  | [] => []
  | .read _ :: events => commits events
  | .commit client :: events => client :: commits events

theorem commits_append (xs ys : List (Event ι)) :
    commits (xs ++ ys) = commits xs ++ commits ys := by
  induction xs with
  | nil => rfl
  | cons e xs ih => cases e <;> simp [commits, ih]

theorem mem_commits {events : List (Event ι)} {i : ι} :
    i ∈ commits events ↔ .commit i ∈ events := by
  induction events with
  | nil => simp [commits]
  | cons e events ih => cases e <;> simp [commits, ih]

/-! ## Overlaps -/

/-- **An overlap**: another client commits between a client's read and its
commit. -/
def Overlap (events : List (Event ι)) : Prop :=
  ∃ i j, i ≠ j ∧ [.read i, .commit j, .commit i].Sublist events

/-- What a client has read is out of date: another has committed since. -/
def Stale (events : List (Event ι)) (i : ι) : Prop :=
  ∃ j, i ≠ j ∧ [.read i, .commit j].Sublist events

theorem sublist_concat_iff {α : Type} {xs l : List α} {x a : α} :
    (xs ++ [x]).Sublist (l ++ [a]) ↔ (xs ++ [x]).Sublist l ∨ (x = a ∧ xs.Sublist l) := by
  have hl : (xs ++ [x]).Sublist l ↔ (x :: xs.reverse).Sublist l.reverse := by
    rw [← List.reverse_sublist, List.reverse_append, List.reverse_singleton, List.singleton_append]
  have hxs : xs.Sublist l ↔ xs.reverse.Sublist l.reverse := List.reverse_sublist.symm
  rw [hl, hxs, ← List.reverse_sublist, List.reverse_append, List.reverse_append,
    List.reverse_singleton, List.reverse_singleton, List.singleton_append, List.singleton_append,
    List.cons_sublist_cons']

/-- Overlaps end with a commit. -/
theorem overlap_concat_read {events : List (Event ι)} {k : ι} :
    Overlap (events ++ [.read k]) ↔ Overlap events := by
  refine exists_congr (fun i => exists_congr (fun j => and_congr Iff.rfl ?_))
  rw [show [Event.read i, .commit j, .commit i] = [.read i, .commit j] ++ [.commit i] from rfl,
    sublist_concat_iff]
  simp

/-- A commit overlaps exactly when what its client has read is out of date. -/
theorem overlap_concat_commit {events : List (Event ι)} {k : ι} :
    Overlap (events ++ [.commit k]) ↔ Overlap events ∨ Stale events k := by
  have hsplit : ∀ i j, [Event.read i, .commit j, .commit i].Sublist (events ++ [.commit k]) ↔
      [Event.read i, .commit j, .commit i].Sublist events ∨
        (i = k ∧ [Event.read i, .commit j].Sublist events) := by
    intro i j
    rw [show [Event.read i, .commit j, .commit i] = [.read i, .commit j] ++ [.commit i] from rfl,
      sublist_concat_iff, Event.commit.injEq]
  constructor
  · rintro ⟨i, j, hne, h⟩
    rcases (hsplit i j).mp h with hsub | ⟨rfl, hsub⟩
    · exact Or.inl ⟨i, j, hne, hsub⟩
    · exact Or.inr ⟨j, hne, hsub⟩
  · rintro (⟨i, j, hne, h⟩ | ⟨j, hne, h⟩)
    · exact ⟨i, j, hne, (hsplit i j).mpr (Or.inl h)⟩
    · exact ⟨k, j, hne, (hsplit k j).mpr (Or.inr ⟨rfl, h⟩)⟩

theorem stale_concat_read {events : List (Event ι)} {i k : ι} :
    Stale (events ++ [.read k]) i ↔ Stale events i := by
  refine exists_congr (fun j => and_congr Iff.rfl ?_)
  rw [show [Event.read i, .commit j] = [.read i] ++ [.commit j] from rfl, sublist_concat_iff]
  simp

/-- A commit puts everything out of date that others have read. -/
theorem stale_concat_commit {events : List (Event ι)} {i k : ι} (hne : i ≠ k)
    (hread : .read i ∈ events) : Stale (events ++ [.commit k]) i := by
  refine ⟨k, hne, ?_⟩
  rw [show [Event.read i, .commit k] = [.read i] ++ [.commit k] from rfl]
  exact (List.singleton_sublist.mpr hread).append (List.Sublist.refl _)

theorem not_stale_of_read_notMem {events : List (Event ι)} {i : ι} (h : .read i ∉ events) :
    ¬ Stale events i := by
  rintro ⟨j, -, hsub⟩
  exact h (hsub.subset List.mem_cons_self)

/-! ## The cell -/

variable [DecidableEq ι]

/-- The cell after an event. -/
def Cell.apply (cell : Cell ι) : Event ι → Cell ι
  | .read client => { cell with snapshot := Function.update cell.snapshot client cell.log }
  | .commit client => { cell with log := cell.snapshot client ++ [client] }

/-- **The cell after an interleaving**, empty at first. -/
def run (events : List (Event ι)) : Cell ι :=
  events.foldl Cell.apply ⟨[], fun _ => []⟩

@[simp] theorem run_concat (events : List (Event ι)) (e : Event ι) :
    run (events ++ [e]) = (run events).apply e := by
  unfold run
  rw [List.foldl_append]
  rfl

/-! ## Nothing is torn -/

/-- The log, and everything that has been read, is a sublist of the commits. -/
theorem sublist_commits (events : List (Event ι)) :
    (run events).log.Sublist (commits events) ∧
      ∀ i, ((run events).snapshot i).Sublist (commits events) := by
  induction events using List.reverseRecOn with
  | nil => exact ⟨List.Sublist.slnil, fun _ => List.Sublist.slnil⟩
  | append_singleton events e ih =>
    rw [run_concat, commits_append]
    cases e with
    | read client =>
      rw [show commits [Event.read client] = [] from rfl, List.append_nil]
      refine ⟨ih.1, fun i => ?_⟩
      unfold Cell.apply
      show (Function.update (run events).snapshot client (run events).log i).Sublist _
      by_cases hi : i = client
      · rw [hi, Function.update_self]
        exact ih.1
      · rw [Function.update_of_ne hi]
        exact ih.2 i
    | commit client =>
      exact ⟨(ih.2 client).append (List.Sublist.refl _),
        fun i => (ih.2 i).trans (List.sublist_append_left _ _)⟩

/-- **The cell holds committed entries only, in the order of the commits.** -/
theorem log_sublist_commits (events : List (Event ι)) :
    (run events).log.Sublist (commits events) := (sublist_commits events).1

/-! ## Nothing is lost -/

/-- **Each client reads once and then commits once**, or is on the way there. -/
def Ordered (events : List (Event ι)) : Prop :=
  ∀ i, events.filter (fun e => e.client = i) <+: [.read i, .commit i]

theorem Ordered.of_concat {events : List (Event ι)} {e : Event ι}
    (h : Ordered (events ++ [e])) : Ordered events := by
  intro i
  refine List.IsPrefix.trans ?_ (h i)
  rw [List.filter_append]
  exact List.prefix_append _ _

/-- A client that reads has done nothing before. -/
theorem Ordered.filter_of_read {events : List (Event ι)} {i : ι}
    (h : Ordered (events ++ [.read i])) : events.filter (fun e => e.client = i) = [] := by
  have hi := h i
  rw [List.filter_append, show [Event.read i].filter (fun e => e.client = i) = [.read i] by
    simp [Event.client]] at hi
  cases hf : events.filter (fun e => e.client = i) with
  | nil => rfl
  | cons a l =>
    rw [hf] at hi
    cases l <;> simp [List.cons_prefix_cons] at hi

/-- A client that commits has read before, and has done nothing else. -/
theorem Ordered.filter_of_commit {events : List (Event ι)} {i : ι}
    (h : Ordered (events ++ [.commit i])) :
    events.filter (fun e => e.client = i) = [.read i] := by
  have hi := h i
  rw [List.filter_append, show [Event.commit i].filter (fun e => e.client = i) = [.commit i] by
    simp [Event.client]] at hi
  cases hf : events.filter (fun e => e.client = i) with
  | nil =>
    rw [hf] at hi
    simp [List.cons_prefix_cons] at hi
  | cons a l =>
    rw [hf] at hi
    cases l with
    | nil =>
      rw [List.singleton_append, List.cons_prefix_cons] at hi
      rw [hi.1]
    | cons b l => simp [List.cons_prefix_cons] at hi

/-- Whether a client's event has occurred, by what the client has done. -/
theorem mem_iff_mem_filter {events : List (Event ι)} {e : Event ι} :
    e ∈ events ↔ e ∈ events.filter (fun x => x.client = e.client) := by
  simp [List.mem_filter]

/-- **The cell is complete exactly when no overlap has occurred**, and what a
client has read is complete exactly when, moreover, it is not out of date. The
induction is on the interleaving; the second part carries the first past a
commit. -/
theorem complete_iff {events : List (Event ι)} (h : Ordered events) :
    ((run events).log = commits events ↔ ¬ Overlap events) ∧
      ∀ i, .read i ∈ events → .commit i ∉ events →
        ((run events).snapshot i = commits events ↔ ¬ Overlap events ∧ ¬ Stale events i) := by
  induction events using List.reverseRecOn with
  | nil =>
    refine ⟨iff_of_true rfl ?_, fun i hi => (List.not_mem_nil hi).elim⟩
    rintro ⟨i, j, -, hsub⟩
    exact absurd hsub (by simp)
  | append_singleton events e ih =>
    obtain ⟨hlog, hsnap⟩ := ih h.of_concat
    rw [run_concat, commits_append]
    cases e with
    | read k =>
      have hfresh : .read k ∉ events := by
        rw [mem_iff_mem_filter]
        show Event.read k ∉ events.filter (fun x => x.client = k)
        rw [h.filter_of_read]
        exact List.not_mem_nil
      rw [show commits [Event.read k] = [] from rfl, List.append_nil, overlap_concat_read]
      refine ⟨hlog, fun i hread hcommit => ?_⟩
      rw [stale_concat_read]
      show Function.update (run events).snapshot k (run events).log i = _ ↔ _
      by_cases hi : i = k
      · subst hi
        rw [Function.update_self, hlog]
        exact (and_iff_left (not_stale_of_read_notMem hfresh)).symm
      · rw [Function.update_of_ne hi]
        refine hsnap i ?_ (fun hc => hcommit (List.mem_append_left _ hc))
        simpa [hi] using hread
    | commit k =>
      have hfilter := h.filter_of_commit
      have hread : .read k ∈ events := by
        rw [mem_iff_mem_filter]
        show Event.read k ∈ events.filter (fun x => x.client = k)
        rw [hfilter]
        exact List.mem_singleton_self _
      have hcommit : .commit k ∉ events := by
        rw [mem_iff_mem_filter]
        show Event.commit k ∉ events.filter (fun x => x.client = k)
        rw [hfilter]
        simp
      rw [show commits [Event.commit k] = [k] from rfl, overlap_concat_commit, not_or]
      constructor
      · show (run events).snapshot k ++ [k] = commits events ++ [k] ↔ _
        rw [List.append_left_inj, hsnap k hread hcommit]
      · intro i hread' hcommit'
        have hi : i ≠ k := fun hi => hcommit' (List.mem_append_right _ (by rw [hi]; simp))
        have hread : .read i ∈ events := by simpa using hread'
        -- the commit is new to what the client has read
        refine iff_of_false (fun heq => ?_) (fun hboth => hboth.2 (stale_concat_commit hi hread))
        have hle := ((sublist_commits events).2 i).length_le
        have hlen := congrArg List.length heq
        rw [List.length_append, List.length_singleton] at hlen
        have hsame : ((run events).apply (.commit k)).snapshot i = (run events).snapshot i := rfl
        rw [hsame] at hlen
        omega

/-- **Nothing is lost exactly when no commit falls between another client's
read and its commit.** -/
theorem log_eq_commits_iff {events : List (Event ι)} (h : Ordered events) :
    (run events).log = commits events ↔ ¬ Overlap events := (complete_iff h).1

end AppendCell
