import NautilusAgents.FileProgram

/-!
# Directories

A file system with directories, as the tree it is: a node is a file with its
content or a directory with named nodes, and a path is the list of names on
the way down. The operations are those a program has that writes files below
directories it makes itself and looks at what is there: reading a file,
listing a directory, creating a directory with all its ancestors, writing a
file anew. They fail for what stands in their way – a name that is missing, a
file in the place of a directory, a directory in the place of a file – and for
nothing else.

What an operation does to the rest of the tree is said by resolution alone
(`FileTree.find`). A write changes what is found at its path and below, and
what is found on the way there, and nothing that lies **apart**
(`FileTree.Apart`): the two paths part at some name. Creating directories adds
nothing that could be found elsewhere. And an operation whose outcome is there
already leaves the tree as it is, entry for entry, which is what makes writing
the same files again a change of nothing.

A tree has no links: two paths are two places. Of two entries with one name in
a directory the first is the one that is found.
-/

/-- The error of a path that goes on below a file. -/
def notADirectoryError : IoError := ⟨.other "NotADirectory", "Not a directory"⟩

/-- The error of using a directory as a file. -/
def isADirectoryError : IoError := ⟨.other "IsADirectory", "Is a directory"⟩

/-- **A tree of directories and files**, with names in `ν` and contents in
`β`. -/
inductive FileTree (ν β : Type) where
  | file (content : β)
  | dir (entries : List (ν × FileTree ν β))

namespace FileTree

variable {ν β : Type} [DecidableEq ν]

/-! ## Entries -/

/-- The entries of a directory with the node of a name put in its place, or
added behind the others. -/
def putEntry (name : ν) (node : FileTree ν β) :
    List (ν × FileTree ν β) → List (ν × FileTree ν β)
  | [] => [(name, node)]
  | (n, old) :: rest =>
    if name = n then (n, node) :: rest else (n, old) :: putEntry name node rest

theorem lookup_putEntry_self (name : ν) (node : FileTree ν β)
    (entries : List (ν × FileTree ν β)) :
    (putEntry name node entries).lookup name = some node := by
  induction entries with
  | nil => simp [putEntry]
  | cons entry rest ih =>
    obtain ⟨n, old⟩ := entry
    unfold putEntry
    split_ifs with h
    · simp [h]
    · have hne : (name == n) = false := beq_false_of_ne h
      rw [List.lookup_cons, hne]
      exact ih

theorem lookup_putEntry_of_ne {name other : ν} (h : other ≠ name) (node : FileTree ν β)
    (entries : List (ν × FileTree ν β)) :
    (putEntry name node entries).lookup other = entries.lookup other := by
  induction entries with
  | nil =>
    have hne : (other == name) = false := beq_false_of_ne h
    simp [putEntry, List.lookup_cons, hne]
  | cons entry rest ih =>
    obtain ⟨n, old⟩ := entry
    unfold putEntry
    split_ifs with hn
    · subst hn
      have hne : (other == name) = false := beq_false_of_ne h
      simp only [List.lookup_cons, hne]
    · simp only [List.lookup_cons, ih]

/-- Putting the node that is there changes nothing. -/
theorem putEntry_eq_self {name : ν} {node : FileTree ν β} {entries : List (ν × FileTree ν β)}
    (h : entries.lookup name = some node) : putEntry name node entries = entries := by
  induction entries with
  | nil => cases h
  | cons entry rest ih =>
    obtain ⟨n, old⟩ := entry
    unfold putEntry
    split_ifs with hn
    · rw [List.lookup_cons, hn, beq_self_eq_true] at h
      cases h
      rfl
    · have hne : (name == n) = false := beq_false_of_ne hn
      rw [List.lookup_cons, hne] at h
      rw [ih h]

/-- Of two nodes put in the place of a name, the second stays. -/
theorem putEntry_putEntry (name : ν) (node node' : FileTree ν β)
    (entries : List (ν × FileTree ν β)) :
    putEntry name node' (putEntry name node entries) = putEntry name node' entries := by
  induction entries with
  | nil => exact if_pos rfl
  | cons entry rest ih =>
    obtain ⟨n, old⟩ := entry
    rw [putEntry]
    split_ifs with hn
    · rw [putEntry, putEntry, if_pos hn, if_pos hn]
    · rw [putEntry, putEntry, if_neg hn, if_neg hn, ih]

/-! ## Operations -/

/-- **Resolve a path.** -/
def find : List ν → FileTree ν β → Except IoError (FileTree ν β)
  | [], tree => .ok tree
  | _ :: _, .file _ => .error notADirectoryError
  | name :: path, .dir entries =>
    match entries.lookup name with
    | none => .error notFoundError
    | some child => find path child

/-- Read a file. -/
def read (path : List ν) (tree : FileTree ν β) : Except IoError β :=
  match find path tree with
  | .ok (.file content) => .ok content
  | .ok (.dir _) => .error isADirectoryError
  | .error e => .error e

/-- List the names in a directory. -/
def readDir (path : List ν) (tree : FileTree ν β) : Except IoError (List ν) :=
  match find path tree with
  | .ok (.dir entries) => .ok (entries.map Prod.fst)
  | .ok (.file _) => .error notADirectoryError
  | .error e => .error e

/-- **Create a directory** and those it lies in, where they are missing. A
file in its place or above it is in the way, and then nothing is created. -/
def createDirAll : List ν → FileTree ν β → Except IoError (FileTree ν β)
  | [], .dir entries => .ok (.dir entries)
  | [], .file _ => .error alreadyExistsError
  | _ :: _, .file _ => .error notADirectoryError
  | name :: path, .dir entries =>
    (createDirAll path ((entries.lookup name).getD (.dir []))).map
      (fun child => .dir (putEntry name child entries))

/-- **Write a file**: the content replaces that of a file that is there, and
otherwise the file is made in a directory that must be. -/
def write (content : β) : List ν → FileTree ν β → Except IoError (FileTree ν β)
  | [], .file _ => .ok (.file content)
  | [], .dir _ => .error isADirectoryError
  | _ :: _, .file _ => .error notADirectoryError
  | name :: path, .dir entries =>
    match entries.lookup name with
    | some child =>
      (write content path child).map (fun child => .dir (putEntry name child entries))
    | none =>
      if path.isEmpty then .ok (.dir (putEntry name (.file content) entries))
      else .error notFoundError

theorem find_cons_dir (name : ν) (path : List ν) (entries : List (ν × FileTree ν β)) :
    find (name :: path) (.dir entries)
      = match entries.lookup name with
        | none => .error notFoundError
        | some child => find path child := rfl

theorem read_eq_ok_iff {path : List ν} {tree : FileTree ν β} {content : β} :
    read path tree = .ok content ↔ find path tree = .ok (.file content) := by
  unfold read
  cases find path tree with
  | error e => simp
  | ok node =>
    cases node with
    | file c => simp
    | dir entries => simp

/-- Below a node, resolution goes on from the node. -/
theorem find_append (path rest : List ν) (tree : FileTree ν β) :
    find (path ++ rest) tree = find path tree >>= find rest := by
  induction path generalizing tree with
  | nil => rfl
  | cons name path ih =>
    cases tree with
    | file content => rfl
    | dir entries =>
      rw [List.cons_append, find_cons_dir, find_cons_dir]
      cases entries.lookup name with
      | none => rfl
      | some child => exact ih child

/-- What lies above a node that is found is a directory. -/
theorem exists_find_dropLast {path : List ν} (hne : path ≠ []) {tree node : FileTree ν β}
    (h : find path tree = .ok node) : ∃ entries, find path.dropLast tree = .ok (.dir entries) := by
  induction path generalizing tree with
  | nil => exact absurd rfl hne
  | cons name path ih =>
    cases tree with
    | file content => cases h
    | dir entries =>
      cases path with
      | nil => exact ⟨entries, rfl⟩
      | cons next path =>
        rw [find_cons_dir] at h
        rw [List.dropLast_cons_cons, find_cons_dir]
        cases hl : entries.lookup name with
        | none =>
          rw [hl] at h
          cases h
        | some child =>
          rw [hl] at h
          exact ih (List.cons_ne_nil _ _) h

/-! ## What an operation leaves alone -/

/-- **Two paths that lie apart**: neither starts with the other. -/
def Apart (p q : List ν) : Prop := ¬ p <+: q ∧ ¬ q <+: p

instance (p q : List ν) : Decidable (Apart p q) := inferInstanceAs (Decidable (_ ∧ _))

omit [DecidableEq ν] in
theorem Apart.symm {p q : List ν} (h : Apart p q) : Apart q p := ⟨h.2, h.1⟩

omit [DecidableEq ν] in
/-- Behind one name, apart is apart. -/
theorem apart_cons_iff {name : ν} {p q : List ν} :
    Apart (name :: p) (name :: q) ↔ Apart p q := by
  unfold Apart
  rw [List.cons_prefix_cons, List.cons_prefix_cons]
  simp

omit [DecidableEq ν] in
theorem apart_append_left_iff {d p q : List ν} : Apart (d ++ p) (d ++ q) ↔ Apart p q := by
  induction d with
  | nil => exact Iff.rfl
  | cons name d ih => exact apart_cons_iff.trans ih

omit [DecidableEq ν] in
/-- Paths that part at their first name lie apart. -/
theorem apart_of_head_ne {a b : ν} (h : a ≠ b) (p q : List ν) : Apart (a :: p) (b :: q) :=
  ⟨fun hp => h (List.cons_prefix_cons.mp hp).1, fun hp => h (List.cons_prefix_cons.mp hp).1.symm⟩

omit [DecidableEq ν] in
/-- Different names in one directory lie apart. -/
theorem apart_append_singleton {a b : ν} (h : a ≠ b) (d : List ν) :
    Apart (d ++ [a]) (d ++ [b]) :=
  apart_append_left_iff.mpr (apart_of_head_ne h [] [])

/-- What creating a directory does at the first name of its path. -/
theorem createDirAll_cons_eq_ok {name : ν} {path : List ν} {tree tree' : FileTree ν β}
    (h : createDirAll (name :: path) tree = .ok tree') :
    ∃ entries child, tree = .dir entries
      ∧ createDirAll path ((entries.lookup name).getD (.dir [])) = .ok child
      ∧ tree' = .dir (putEntry name child entries) := by
  cases tree with
  | file content => cases h
  | dir entries =>
    rw [createDirAll] at h
    cases hc : createDirAll path ((entries.lookup name).getD (.dir [])) with
    | error e =>
      rw [hc] at h
      cases h
    | ok child =>
      rw [hc] at h
      exact ⟨entries, child, rfl, hc, (Except.ok.inj h).symm⟩

/-- **Creating a directory shows on the way to it only.** In what it creates
there is nothing to be found yet. -/
theorem find_createDirAll {path q : List ν} {tree tree' : FileTree ν β}
    (h : createDirAll path tree = .ok tree') (hq : ¬ q <+: path) :
    find q tree' = find q tree := by
  induction path generalizing q tree tree' with
  | nil =>
    cases tree with
    | file content => cases h
    | dir entries =>
      obtain rfl : FileTree.dir entries = tree' := Except.ok.inj h
      rfl
  | cons name path ih =>
    obtain ⟨entries, child, rfl, hchild, rfl⟩ := createDirAll_cons_eq_ok h
    cases q with
    | nil => exact absurd List.nil_prefix hq
    | cons first q =>
      rw [find_cons_dir, find_cons_dir]
      by_cases hfirst : first = name
      · subst hfirst
        have hq' : ¬ q <+: path := fun hp => hq (List.cons_prefix_cons.mpr ⟨rfl, hp⟩)
        have hrec := ih hchild hq'
        rw [lookup_putEntry_self]
        cases hl : entries.lookup first with
        | some node =>
          rw [hl] at hrec
          exact hrec
        | none =>
          rw [hl] at hrec
          cases q with
          | nil => exact absurd List.nil_prefix hq'
          | cons next q => exact hrec
      · rw [lookup_putEntry_of_ne hfirst]

/-- Creating a directory that is there changes nothing. -/
theorem createDirAll_eq_self {path : List ν} {tree : FileTree ν β}
    {entries : List (ν × FileTree ν β)} (h : find path tree = .ok (.dir entries)) :
    createDirAll path tree = .ok tree := by
  induction path generalizing tree with
  | nil =>
    obtain rfl : tree = .dir entries := Except.ok.inj h
    rfl
  | cons name path ih =>
    cases tree with
    | file content => cases h
    | dir siblings =>
      rw [find_cons_dir] at h
      cases hl : siblings.lookup name with
      | none =>
        rw [hl] at h
        cases h
      | some child =>
        rw [hl] at h
        rw [createDirAll, hl, Option.getD_some, ih h]
        show Except.ok (FileTree.dir (putEntry name child siblings)) = _
        rw [putEntry_eq_self hl]

/-- What writing a file does at the first name of its path: it goes on in the
node that is there, or makes the file. -/
theorem write_cons_eq_ok {content : β} {name : ν} {path : List ν} {tree tree' : FileTree ν β}
    (h : write content (name :: path) tree = .ok tree') :
    ∃ entries child', tree = .dir entries ∧ tree' = .dir (putEntry name child' entries) ∧
      ((∃ child, entries.lookup name = some child ∧ write content path child = .ok child') ∨
        (entries.lookup name = none ∧ path = [] ∧ child' = .file content)) := by
  cases tree with
  | file old => cases h
  | dir entries =>
    rw [write] at h
    cases hl : entries.lookup name with
    | some child =>
      rw [hl] at h
      simp only at h
      cases hw : write content path child with
      | error e =>
        rw [hw] at h
        cases h
      | ok child' =>
        rw [hw] at h
        exact ⟨entries, child', rfl, (Except.ok.inj h).symm, .inl ⟨child, hl, hw⟩⟩
    | none =>
      rw [hl] at h
      cases path with
      | nil => exact ⟨entries, _, rfl, (Except.ok.inj h).symm, .inr ⟨hl, rfl, rfl⟩⟩
      | cons next path => cases h

/-- **What is written is found.** -/
theorem find_write_self {content : β} {path : List ν} {tree tree' : FileTree ν β}
    (h : write content path tree = .ok tree') : find path tree' = .ok (.file content) := by
  induction path generalizing tree tree' with
  | nil =>
    cases tree with
    | dir entries => cases h
    | file old =>
      obtain rfl : FileTree.file content = tree' := Except.ok.inj h
      rfl
  | cons name path ih =>
    obtain ⟨entries, child', rfl, rfl, ⟨child, -, hw⟩ | ⟨-, rfl, rfl⟩⟩ := write_cons_eq_ok h
    · rw [find_cons_dir, lookup_putEntry_self]
      exact ih hw
    · rw [find_cons_dir, lookup_putEntry_self]
      rfl

/-- **A write leaves alone what lies apart.** -/
theorem find_write {content : β} {path q : List ν} {tree tree' : FileTree ν β}
    (h : write content path tree = .ok tree') (hq : Apart path q) :
    find q tree' = find q tree := by
  induction path generalizing q tree tree' with
  | nil => exact absurd List.nil_prefix hq.1
  | cons name path ih =>
    obtain ⟨entries, child', rfl, rfl, hchild⟩ := write_cons_eq_ok h
    cases q with
    | nil => exact absurd List.nil_prefix hq.2
    | cons first q =>
      rw [find_cons_dir, find_cons_dir]
      by_cases hfirst : first = name
      · subst hfirst
        have hq' : Apart path q := apart_cons_iff.mp hq
        rw [lookup_putEntry_self]
        obtain ⟨child, hl, hw⟩ | ⟨-, rfl, -⟩ := hchild
        · rw [hl]
          exact ih hw hq'
        · exact absurd List.nil_prefix hq'.1
      · rw [lookup_putEntry_of_ne hfirst]

/-- Writing what is there changes nothing. -/
theorem write_eq_self {content : β} {path : List ν} {tree : FileTree ν β}
    (h : find path tree = .ok (.file content)) : write content path tree = .ok tree := by
  induction path generalizing tree with
  | nil =>
    obtain rfl : tree = .file content := Except.ok.inj h
    rfl
  | cons name path ih =>
    cases tree with
    | file old => cases h
    | dir entries =>
      rw [find_cons_dir] at h
      cases hl : entries.lookup name with
      | none =>
        rw [hl] at h
        cases h
      | some child =>
        rw [hl] at h
        rw [write, hl]
        simp only
        rw [ih h]
        show Except.ok (FileTree.dir (putEntry name child entries)) = _
        rw [putEntry_eq_self hl]

/-! ## Doing it again -/

/-- In an empty directory nothing is in the way. -/
theorem exists_createDirAll_empty (path : List ν) :
    ∃ tree, createDirAll path (.dir [] : FileTree ν β) = .ok tree := by
  induction path with
  | nil => exact ⟨_, rfl⟩
  | cons name path ih =>
    obtain ⟨child, hchild⟩ := ih
    refine ⟨.dir (putEntry name child []), ?_⟩
    rw [createDirAll, List.lookup_nil, Option.getD_none, hchild]
    rfl

/-- **A directory can be created in parts.** Where a directory above it has been
created already, creating it comes to what it would have come to at once; and if
something is in the way, then it was there before, and the part that was created
was nothing new. -/
theorem createDirAll_append {path : List ν} (rest : List ν) {tree tree' : FileTree ν β}
    (h : createDirAll path tree = .ok tree') :
    createDirAll (path ++ rest) tree' = createDirAll (path ++ rest) tree
      ∧ (tree' = tree ∨ ∃ created, createDirAll (path ++ rest) tree = .ok created) := by
  induction path generalizing tree tree' with
  | nil =>
    cases tree with
    | file content => cases h
    | dir entries =>
      obtain rfl : FileTree.dir entries = tree' := Except.ok.inj h
      exact ⟨rfl, .inl rfl⟩
  | cons name path ih =>
    obtain ⟨entries, child, rfl, hchild, rfl⟩ := createDirAll_cons_eq_ok h
    obtain ⟨hagain, hnew⟩ := ih hchild
    rw [List.cons_append, createDirAll, createDirAll, lookup_putEntry_self, Option.getD_some,
      hagain]
    constructor
    · congr 1
      funext node
      rw [putEntry_putEntry]
    · rcases hnew with hsame | ⟨created, hcreated⟩
      · cases hl : entries.lookup name with
        | some node =>
          rw [hl, Option.getD_some] at hsame
          rw [hsame, putEntry_eq_self hl]
          exact .inl rfl
        | none =>
          obtain ⟨created, hcreated⟩ : ∃ created, createDirAll (path ++ rest)
              (.dir [] : FileTree ν β) = .ok created := exists_createDirAll_empty (path ++ rest)
          rw [Option.getD_none, hcreated]
          exact .inr ⟨_, rfl⟩
      · rw [hcreated]
        exact .inr ⟨_, rfl⟩

/-- **A file that was written can be written anew**, to the same end as if it had
not been. -/
theorem exists_write_again {content : β} (content' : β) {path : List ν} {tree tree' : FileTree ν β}
    (h : write content path tree = .ok tree') :
    ∃ written, write content' path tree = .ok written ∧
      write content' path tree' = .ok written := by
  induction path generalizing tree tree' with
  | nil =>
    cases tree with
    | dir entries => cases h
    | file old =>
      obtain rfl : FileTree.file content = tree' := Except.ok.inj h
      exact ⟨.file content', rfl, rfl⟩
  | cons name path ih =>
    obtain ⟨entries, child', rfl, rfl, ⟨child, hl, hw⟩ | ⟨hl, rfl, rfl⟩⟩ := write_cons_eq_ok h
    · obtain ⟨written, hfirst, hagain⟩ := ih hw
      refine ⟨.dir (putEntry name written entries), ?_, ?_⟩
      · rw [write, hl]
        simp only [hfirst]
        rfl
      · rw [write, lookup_putEntry_self]
        simp only [hagain]
        exact congrArg (fun es => Except.ok (FileTree.dir es))
          (putEntry_putEntry name child' written entries)
    · refine ⟨.dir (putEntry name (.file content') entries), ?_, ?_⟩
      · rw [write, hl]
        rfl
      · rw [write, lookup_putEntry_self]
        exact congrArg (fun es => Except.ok (FileTree.dir es))
          (putEntry_putEntry name (.file content) (.file content') entries)

end FileTree
