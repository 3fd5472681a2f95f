import Mathlib

/-!
# JSON pointers

A JSON pointer names a place in a document by the tokens on the way to it. It
is the text in which each token follows a slash, and in which a token's own
slashes and tildes are written `~1` and `~0`.

So a pointer is the spelling of a list of tokens, and of one list only:
`tokens_spell` reads the list back, because escaping leaves no slash in a token
to be mistaken for the next one's (`slash_notMem_escaped`). A place lies in the
part of the document another one designates when its tokens start with the
other's, which is how the ancestors of a place are spoken of here.

The grammar says the same of the text alone. A reference token is made of
characters other than slash and tilde and of the two escapes, and a pointer of
reference tokens, each behind a slash (`IsReferenceToken`, `IsPointer`). What
the grammar derives is what spelling yields, so that splitting a pointer at its
slashes gives its reference tokens (`IsPointer.splitOn_eq`), and each of them is
unescaped without an error (`IsReferenceToken.exists_decode_eq`).
-/

namespace JsonPointer

/-- A token: a member name or an index. -/
abbrev Token := List Char

/-- How a character of a token is written. -/
def escape (c : Char) : List Char :=
  if c = '~' then ['~', '0'] else if c = '/' then ['~', '1'] else [c]

/-- How a token is written. -/
def escaped (token : Token) : List Char := token.flatMap escape

/-- **The pointer that spells a list of tokens.** -/
def spell (tokens : List Token) : List Char := tokens.flatMap (fun token => '/' :: escaped token)

/-- The token a segment stands for. -/
def unescape : List Char → Token
  | [] => []
  | [c] => [c]
  | c :: d :: rest =>
    if c = '~' ∧ d = '1' then '/' :: unescape rest
    else if c = '~' ∧ d = '0' then '~' :: unescape rest
    else c :: unescape (d :: rest)

/-- **The tokens of a pointer.** -/
def tokens (pointer : List Char) : List Token := ((pointer.splitOn '/').drop 1).map unescape

theorem spell_cons (token : Token) (rest : List Token) :
    spell (token :: rest) = '/' :: (escaped token ++ spell rest) := rfl

/-- **Escaping leaves no slash.** -/
theorem slash_notMem_escaped (token : Token) : '/' ∉ escaped token := by
  intro h
  obtain ⟨c, -, hc⟩ := List.mem_flatMap.mp h
  unfold escape at hc
  split_ifs at hc with htilde hslash
  · simp at hc
  · simp at hc
  · exact hslash (List.mem_singleton.mp hc).symm

theorem unescape_cons {c : Char} (h : c ≠ '~') (rest : List Char) :
    unescape (c :: rest) = c :: unescape rest := by
  cases rest with
  | nil => rfl
  | cons d rest =>
    rw [unescape, if_neg (fun hc => h hc.1), if_neg (fun hc => h hc.1)]

/-- **Escaping is undone.** -/
theorem unescape_escaped (token : Token) : unescape (escaped token) = token := by
  induction token with
  | nil => rfl
  | cons c token ih =>
    unfold escaped at ih ⊢
    rw [List.flatMap_cons]
    unfold escape
    split_ifs with htilde hslash
    · rw [htilde]
      exact congrArg (List.cons '~') ih
    · rw [hslash]
      exact congrArg (List.cons '/') ih
    · rw [List.singleton_append, unescape_cons htilde]
      exact congrArg (List.cons c) ih

theorem escaped_injective : Function.Injective escaped :=
  Function.LeftInverse.injective unescape_escaped

/-- A segment with the pointer that follows it falls apart at the slashes. -/
theorem splitOn_append_spell {cs : List Char} (h : '/' ∉ cs) (ts : List Token) :
    (cs ++ spell ts).splitOn '/' = cs :: ts.map escaped := by
  induction ts generalizing cs with
  | nil =>
    show (cs ++ []).splitOn '/' = [cs]
    rw [List.append_nil, List.splitOn_eq_singleton h]
  | cons t ts ih =>
    rw [spell_cons, List.splitOn_append_cons_self_of_not_mem h, ih (slash_notMem_escaped t),
      List.map_cons]

/-- **A pointer falls apart into the segments of its tokens**, after an empty
one. -/
theorem splitOn_spell (ts : List Token) : (spell ts).splitOn '/' = [] :: ts.map escaped :=
  splitOn_append_spell List.not_mem_nil ts

/-- **A pointer spells its tokens.** -/
theorem tokens_spell (ts : List Token) : tokens (spell ts) = ts := by
  unfold tokens
  rw [splitOn_spell, List.drop_one, List.tail_cons, List.map_map]
  exact (List.map_congr_left (fun t _ => unescape_escaped t)).trans (List.map_id ts)

/-! ## The grammar -/

/-- **A reference token**, as it is written. -/
inductive IsReferenceToken : List Char → Prop where
  | nil : IsReferenceToken []
  | unescaped {c : Char} {cs : List Char} (hslash : c ≠ '/') (htilde : c ≠ '~')
      (h : IsReferenceToken cs) : IsReferenceToken (c :: cs)
  | escaped {d : Char} {cs : List Char} (hd : d = '0' ∨ d = '1') (h : IsReferenceToken cs) :
      IsReferenceToken ('~' :: d :: cs)

/-- **A pointer**, with its reference tokens. -/
inductive IsPointer : List (List Char) → List Char → Prop where
  | nil : IsPointer [] []
  | cons {written : List Char} {rest : List (List Char)} {pointer : List Char}
      (hwritten : IsReferenceToken written) (h : IsPointer rest pointer) :
      IsPointer (written :: rest) ('/' :: (written ++ pointer))

/-- Undo the escapes of a reference token. A tilde that starts none is an
error. -/
def decode : List Char → Option Token
  | [] => some []
  | [c] => if c = '~' then none else some [c]
  | c :: d :: rest =>
    if c = '~' then
      if d = '0' then (decode rest).map (List.cons '~')
      else if d = '1' then (decode rest).map (List.cons '/')
      else none
    else (decode (d :: rest)).map (List.cons c)

theorem decode_cons {c : Char} (h : c ≠ '~') (rest : List Char) :
    decode (c :: rest) = (decode rest).map (List.cons c) := by
  cases rest with
  | nil => exact if_neg h
  | cons d rest => rw [decode, if_neg h]

/-- **A token is decoded from what is written for it.** -/
theorem decode_escaped (token : Token) : decode (escaped token) = some token := by
  induction token with
  | nil => rfl
  | cons c token ih =>
    unfold escaped at ih ⊢
    rw [List.flatMap_cons]
    unfold escape
    split_ifs with htilde hslash
    · rw [htilde]
      exact congrArg (Option.map (List.cons '~')) ih
    · rw [hslash]
      exact congrArg (Option.map (List.cons '/')) ih
    · rw [List.singleton_append, decode_cons htilde]
      exact congrArg (Option.map (List.cons c)) ih

theorem isReferenceToken_escaped (token : Token) : IsReferenceToken (escaped token) := by
  induction token with
  | nil => exact .nil
  | cons c token ih =>
    unfold escaped at ih ⊢
    rw [List.flatMap_cons]
    unfold escape
    split_ifs with htilde hslash
    · exact .escaped (Or.inl rfl) ih
    · exact .escaped (Or.inr rfl) ih
    · exact .unescaped hslash htilde ih

/-- **A reference token is written for a token.** -/
theorem IsReferenceToken.exists_eq_escaped {written : List Char} (h : IsReferenceToken written) :
    ∃ token, written = JsonPointer.escaped token := by
  induction h with
  | nil => exact ⟨[], rfl⟩
  | @unescaped c cs hslash htilde h ih =>
    obtain ⟨token, rfl⟩ := ih
    refine ⟨c :: token, ?_⟩
    unfold JsonPointer.escaped
    rw [List.flatMap_cons, escape, if_neg htilde, if_neg hslash]
    rfl
  | escaped hd h ih =>
    obtain ⟨token, rfl⟩ := ih
    rcases hd with rfl | rfl
    · exact ⟨'~' :: token, rfl⟩
    · exact ⟨'/' :: token, rfl⟩

theorem IsReferenceToken.exists_decode_eq {written : List Char} (h : IsReferenceToken written) :
    ∃ token, decode written = some token := by
  obtain ⟨token, rfl⟩ := h.exists_eq_escaped
  exact ⟨token, decode_escaped token⟩

/-- **The pointers of the grammar are those that spell tokens.** -/
theorem isPointer_iff {writtens : List (List Char)} {pointer : List Char} :
    IsPointer writtens pointer ↔
      ∃ tokens, writtens = tokens.map escaped ∧ pointer = spell tokens := by
  constructor
  · intro h
    induction h with
    | nil => exact ⟨[], rfl, rfl⟩
    | cons hwritten _ ih =>
      obtain ⟨token, rfl⟩ := hwritten.exists_eq_escaped
      obtain ⟨tokens, rfl, rfl⟩ := ih
      exact ⟨token :: tokens, rfl, rfl⟩
  · rintro ⟨tokens, rfl, rfl⟩
    induction tokens with
    | nil => exact .nil
    | cons token tokens ih => exact .cons (isReferenceToken_escaped token) ih

/-- **Splitting a pointer at its slashes gives its reference tokens**, behind
an empty piece. -/
theorem IsPointer.splitOn_eq {writtens : List (List Char)} {pointer : List Char}
    (h : IsPointer writtens pointer) : pointer.splitOn '/' = [] :: writtens := by
  obtain ⟨tokens, rfl, rfl⟩ := isPointer_iff.mp h
  exact splitOn_spell tokens

theorem IsPointer.isReferenceToken {writtens : List (List Char)} {pointer : List Char}
    (h : IsPointer writtens pointer) : ∀ written ∈ writtens, IsReferenceToken written := by
  obtain ⟨tokens, rfl, -⟩ := isPointer_iff.mp h
  intro written hwritten
  obtain ⟨token, -, rfl⟩ := List.mem_map.mp hwritten
  exact isReferenceToken_escaped token

end JsonPointer
