import NautilusAgents.Json

/-!
# JSON texts

The compact text of a document, and a reader of RFC 8259 texts. The writer
puts no white space anywhere, escapes a quotation mark, a backslash and every
control character of a string, and writes everything else as it is – which is
the text both of a compact serializer and, once the members are in order, of
RFC 8785. The reader takes any RFC 8259 text: white space, all the escapes,
surrogate pairs, numbers of any form.

Which texts are read as a value is said once for every writer (`Json.Reads`):
an array is made of texts of its items, an object of texts of its members, and
white space may stand where the reader drops it (`Json.reads_arr`,
`Json.reads_obj`). A writer is read back by what its texts are made of.

Two facts carry what is built on them. **Reading undoes writing**
(`Json.parse_encode`), so the bytes of a document determine it. And **a
written document is one line** (`Json.newline_notMem_encode`): no control
character survives the writer, and in UTF-8 the byte of a line feed belongs to
no other character.
-/

namespace Json

/-! ## Writing -/

/-- A hexadecimal digit, in lower case. -/
def hexDigit (n : ℕ) : Char := Nat.digitChar n

/-- A character inside a string: the two-character escape where there is one,
`\u00XX` for any other control character, and itself otherwise. -/
def escape (c : Char) : List Char :=
  if c = '"' then ['\\', '"']
  else if c = '\\' then ['\\', '\\']
  else if c.toNat = 0x08 then ['\\', 'b']
  else if c.toNat = 0x0c then ['\\', 'f']
  else if c.toNat = 0x0a then ['\\', 'n']
  else if c.toNat = 0x0d then ['\\', 'r']
  else if c.toNat = 0x09 then ['\\', 't']
  else if c.toNat < 0x20 then
    ['\\', 'u', '0', '0', hexDigit (c.toNat / 16), hexDigit (c.toNat % 16)]
  else [c]

/-- A string between quotation marks. -/
def quote (s : String) : List Char :=
  '"' :: (s.toList.flatMap escape ++ ['"'])

/-- Texts with a comma between each two. -/
def commaSeparated : List (List Char) → List Char
  | [] => []
  | [x] => x
  | x :: y :: rest => x ++ ',' :: commaSeparated (y :: rest)

mutual

/-- **The compact text of a document.** -/
def write : Json → List Char
  | .null => ['n', 'u', 'l', 'l']
  | .bool true => ['t', 'r', 'u', 'e']
  | .bool false => ['f', 'a', 'l', 's', 'e']
  | .nat n => Nat.toDigits 10 n
  | .number lexeme => lexeme.toList
  | .str s => quote s
  | .arr items => '[' :: (commaSeparated (writeItems items) ++ [']'])
  | .obj members => '{' :: (commaSeparated (writeMembers members) ++ ['}'])

/-- The texts of the items of an array. -/
def writeItems : List Json → List (List Char)
  | [] => []
  | x :: xs => write x :: writeItems xs

/-- The texts of the members of an object. -/
def writeMembers : List (String × Json) → List (List Char)
  | [] => []
  | (k, v) :: ms => (quote k ++ ':' :: write v) :: writeMembers ms

end

/-! ## Reading -/

/-- The white space of RFC 8259. -/
def isSpace (c : Char) : Bool :=
  c.toNat = 0x20 || c.toNat = 0x09 || c.toNat = 0x0a || c.toNat = 0x0d

/-- Drop leading white space. -/
def skipSpace (cs : List Char) : List Char := cs.dropWhile isSpace

/-- The value of a hexadecimal digit, in either case. -/
def hexValue (c : Char) : Option ℕ :=
  if c.isDigit then some (c.toNat - '0'.toNat)
  else if 'a' ≤ c ∧ c ≤ 'f' then some (c.toNat - 'a'.toNat + 10)
  else if 'A' ≤ c ∧ c ≤ 'F' then some (c.toNat - 'A'.toNat + 10)
  else none

/-- The code unit four hexadecimal digits denote. -/
def hex4 (a b c d : Char) : Option ℕ := do
  some ((((← hexValue a) * 16 + (← hexValue b)) * 16 + (← hexValue c)) * 16 + (← hexValue d))

/-- The character a two-character escape denotes. -/
def unescape (c : Char) : Option Char :=
  if c = '"' then some '"'
  else if c = '\\' then some '\\'
  else if c = '/' then some '/'
  else if c = 'b' then some (Char.ofNat 0x08)
  else if c = 'f' then some (Char.ofNat 0x0c)
  else if c = 'n' then some (Char.ofNat 0x0a)
  else if c = 'r' then some (Char.ofNat 0x0d)
  else if c = 't' then some (Char.ofNat 0x09)
  else none

/-- A code unit, after a pending high surrogate or none: the character it
completes, or the high surrogate it leaves pending. A low surrogate completes
a pair and nothing else does. -/
def pairUnit : Option ℕ → ℕ → Option (Option ℕ × List Char)
  | some hi, n =>
    if 0xDC00 ≤ n ∧ n < 0xE000 then
      some (none, [Char.ofNat (0x10000 + (hi - 0xD800) * 0x400 + (n - 0xDC00))])
    else none
  | none, n =>
    if 0xD800 ≤ n ∧ n < 0xDC00 then some (some n, [])
    else if 0xDC00 ≤ n ∧ n < 0xE000 then none
    else some (none, [Char.ofNat n])

/-- The characters of a string up to its closing quotation mark, and what
follows it. A high surrogate waits for the escape of its low one, and a
control character must be escaped. -/
def parseString (pending : Option ℕ) : List Char → Option (List Char × List Char)
  | [] => none
  | c :: rest =>
    if c = '\\' then
      match rest with
      | [] => none
      | e :: rest =>
        if e = 'u' then
          match rest with
          | a :: b :: c :: d :: rest => do
            let n ← hex4 a b c d
            let (pending, out) ← pairUnit pending n
            let (cs, rest) ← parseString pending rest
            some (out ++ cs, rest)
          | _ => none
        else if pending.isSome then none
        else do
          let c ← unescape e
          let (cs, rest) ← parseString none rest
          some (c :: cs, rest)
    else if pending.isSome then none
    else if c = '"' then some ([], rest)
    else if c.toNat < 0x20 then none
    else do
      let (cs, rest) ← parseString none rest
      some (c :: cs, rest)

/-- A character a number is written with. -/
def isNumberChar (c : Char) : Bool :=
  c.isDigit || c = '-' || c = '+' || c = '.' || c = 'e' || c = 'E'

/-- Digits that write a natural number: some, and no leading zero. -/
def isNatural (cs : List Char) : Bool :=
  cs.all Char.isDigit && match cs with
    | [] => false
    | [_] => true
    | c :: _ => c != '0'

/-- The exponent of a number: none, or `e`, a sign or none, and digits. -/
def isExponent : List Char → Bool
  | [] => true
  | e :: s :: rest =>
    (e = 'e' || e = 'E') &&
      if s = '+' ∨ s = '-' then !rest.isEmpty && rest.all Char.isDigit
      else (s :: rest).all Char.isDigit
  | _ => false

/-- The fraction of a number, then its exponent. -/
def isFraction : List Char → Bool
  | '.' :: rest =>
    !(rest.takeWhile Char.isDigit).isEmpty && isExponent (rest.dropWhile Char.isDigit)
  | cs => isExponent cs

/-- A number of RFC 8259 without its sign. -/
def isNumber (cs : List Char) : Bool :=
  isNatural (cs.takeWhile Char.isDigit) && isFraction (cs.dropWhile Char.isDigit)

/-- A number: its value where it is a natural one, and its lexeme otherwise. -/
def parseNumber (cs : List Char) : Option (Json × List Char) :=
  let lexeme := cs.takeWhile isNumberChar
  let rest := cs.dropWhile isNumberChar
  if isNatural lexeme then some (.nat (Nat.ofDigitChars 10 lexeme 0), rest)
  else if isNumber lexeme || (lexeme.head? = some '-' && isNumber lexeme.tail) then
    some (.number (String.ofList lexeme), rest)
  else none

/-- A literal name: the value it stands for when the text goes on with it. -/
def parseLiteral (name : List Char) (j : Json) (cs : List Char) :
    Option (Json × List Char) :=
  if name.isPrefixOf cs then some (j, cs.drop name.length) else none

mutual

/-- One value, and the text after it. The fuel bounds the depth of the
recursion; the length of the text is always enough. -/
def parseValue : ℕ → List Char → Option (Json × List Char)
  | 0, _ => none
  | fuel + 1, cs =>
    match skipSpace cs with
    | [] => none
    | c :: rest =>
      if c = '"' then do
        let (s, rest) ← parseString none rest
        some (.str (String.ofList s), rest)
      else if c = '[' then
        if (skipSpace rest).head? = some ']' then some (.arr [], (skipSpace rest).tail)
        else do
          let (items, rest) ← parseItems fuel rest
          some (.arr items, rest)
      else if c = '{' then
        if (skipSpace rest).head? = some '}' then some (.obj [], (skipSpace rest).tail)
        else do
          let (members, rest) ← parseMembers fuel rest
          some (.obj members, rest)
      else if c = 'n' then parseLiteral ['u', 'l', 'l'] .null rest
      else if c = 't' then parseLiteral ['r', 'u', 'e'] (.bool true) rest
      else if c = 'f' then parseLiteral ['a', 'l', 's', 'e'] (.bool false) rest
      else parseNumber (c :: rest)

/-- One or more items and the bracket that closes them. -/
def parseItems : ℕ → List Char → Option (List Json × List Char)
  | 0, _ => none
  | fuel + 1, cs => do
    let (x, rest) ← parseValue fuel cs
    match skipSpace rest with
    | [] => none
    | c :: rest =>
      if c = ']' then some ([x], rest)
      else if c = ',' then do
        let (xs, rest) ← parseItems fuel rest
        some (x :: xs, rest)
      else none

/-- One or more members and the brace that closes them. -/
def parseMembers : ℕ → List Char → Option (List (String × Json) × List Char)
  | 0, _ => none
  | fuel + 1, cs =>
    match skipSpace cs with
    | [] => none
    | c :: rest =>
      if c = '"' then do
        let (k, rest) ← parseString none rest
        match skipSpace rest with
        | [] => none
        | c :: rest =>
          if c = ':' then do
            let (v, rest) ← parseValue fuel rest
            match skipSpace rest with
            | [] => none
            | c :: rest =>
              if c = '}' then some ([(String.ofList k, v)], rest)
              else if c = ',' then do
                let (ms, rest) ← parseMembers fuel rest
                some ((String.ofList k, v) :: ms, rest)
              else none
          else none
      else none

end

/-- **Read a text**: one value, with white space around it and nothing
else. -/
def parseText (cs : List Char) : Option Json := do
  let (j, rest) ← parseValue (cs.length + 1) cs
  if (skipSpace rest).isEmpty then some j else none

/-! ## Reading a written string -/

/-- A digit below 16 is read back from the character that writes it. -/
theorem hexValue_hexDigit {n : ℕ} (h : n < 16) : hexValue (hexDigit n) = some n := by
  have hall : ∀ n, n < 16 → hexValue (hexDigit n) = some n := by decide
  exact hall n h

/-- A code unit below the surrogates is the character itself. -/
theorem pairUnit_none_of_lt {n : ℕ} (h : n < 0xD800) :
    pairUnit none n = some (none, [Char.ofNat n]) := by
  simp only [pairUnit]
  rw [if_neg (by omega), if_neg (by omega)]

/-- Put a character in front of what a string reader returned. -/
def consChar (c : Char) (p : List Char × List Char) : List Char × List Char :=
  (c :: p.fst, p.snd)

/-- A two-character escape is read as the character it denotes. -/
theorem parseString_unescape {e c : Char} (hu : e ≠ 'u') (he : unescape e = some c)
    (rest : List Char) :
    parseString none ('\\' :: e :: rest) = (parseString none rest).map (consChar c) := by
  rw [parseString.eq_def]
  simp only [if_true, if_neg hu, Option.isSome_none, Bool.false_eq_true, if_false, he,
    Option.map_eq_bind]
  rfl

/-- An escape `\u00XX` below the surrogates is read as its code unit. -/
theorem parseString_hex4 {a b c d : Char} {n : ℕ} (hn : hex4 a b c d = some n)
    (hlt : n < 0xD800) (rest : List Char) :
    parseString none ('\\' :: 'u' :: a :: b :: c :: d :: rest)
      = (parseString none rest).map (consChar (Char.ofNat n)) := by
  rw [parseString.eq_def]
  simp only [if_true, hn, pairUnit_none_of_lt hlt, Option.bind_eq_bind, Option.bind_some,
    Option.map_eq_bind]
  rfl

/-- A character that needs no escape is read as itself. -/
theorem parseString_plain {c : Char} (hslash : c ≠ '\\') (hquote : c ≠ '"')
    (hctl : ¬ c.toNat < 0x20) (rest : List Char) :
    parseString none (c :: rest) = (parseString none rest).map (consChar c) := by
  rw [parseString.eq_def]
  simp only [if_neg hslash, if_neg hquote, if_neg hctl, Option.isSome_none,
    Bool.false_eq_true, if_false, Option.map_eq_bind]
  rfl

/-- The closing quotation mark ends a string. -/
theorem parseString_quote (rest : List Char) :
    parseString none ('"' :: rest) = some ([], rest) := by
  rw [parseString.eq_def]
  rfl

/-- **An escaped character is read back.** -/
theorem parseString_escape (c : Char) (rest : List Char) :
    parseString none (escape c ++ rest) = (parseString none rest).map (consChar c) := by
  have hunescape : ∀ {e : Char} {n : ℕ}, unescape e = some (Char.ofNat n) → c.toNat = n →
      unescape e = some c := fun he hn => by rw [he, ← hn, Char.ofNat_toNat]
  unfold escape
  split_ifs with hquote hslash hb hf hn hr ht hctl
  · exact parseString_unescape (by decide) (by rw [hquote]; rfl) rest
  · exact parseString_unescape (by decide) (by rw [hslash]; rfl) rest
  · exact parseString_unescape (by decide) (hunescape rfl hb) rest
  · exact parseString_unescape (by decide) (hunescape rfl hf) rest
  · exact parseString_unescape (by decide) (hunescape rfl hn) rest
  · exact parseString_unescape (by decide) (hunescape rfl hr) rest
  · exact parseString_unescape (by decide) (hunescape rfl ht) rest
  · -- the digits of `\u00XX` are those of the character's code
    have hhex : hex4 '0' '0' (hexDigit (c.toNat / 16)) (hexDigit (c.toNat % 16))
        = some c.toNat := by
      have hzero : hexValue '0' = some 0 := by decide
      simp only [hex4, hzero, hexValue_hexDigit (show c.toNat / 16 < 16 by omega),
        hexValue_hexDigit (show c.toNat % 16 < 16 by omega)]
      show some (((0 * 16 + 0) * 16 + c.toNat / 16) * 16 + c.toNat % 16) = some c.toNat
      congr 1
      omega
    have hread := parseString_hex4 hhex (by omega) rest
    rwa [Char.ofNat_toNat] at hread
  · exact parseString_plain hslash hquote hctl rest

/-- **A quoted string is read back**, up to its closing quotation mark. -/
theorem parseString_flatMap_escape (cs rest : List Char) :
    parseString none (cs.flatMap escape ++ '"' :: rest) = some (cs, rest) := by
  induction cs with
  | nil => exact parseString_quote rest
  | cons c cs ih =>
    rw [List.flatMap_cons, List.append_assoc, parseString_escape, ih]
    rfl

/-! ## Reading a written number -/

/-- The text does not go on with a character of a number. -/
def EndsNumber (rest : List Char) : Prop :=
  ∀ c ∈ rest.head?, isNumberChar c = false

theorem endsNumber_nil : EndsNumber [] := by
  intro c hc
  cases hc

theorem endsNumber_cons {c : Char} (h : isNumberChar c = false) (rest : List Char) :
    EndsNumber (c :: rest) := by
  intro d hd
  cases hd
  exact h

/-- A numeral without leading zeros: a positive number does not start with
the digit zero. -/
theorem head_toDigits_ne_zero {n : ℕ} (hn : 0 < n) :
    (Nat.toDigits 10 n).head? ≠ some '0' := by
  induction n using Nat.strong_induction_on with
  | _ n ih =>
    by_cases hlt : n < 10
    · rw [Nat.toDigits_of_lt_base hlt]
      have hall : ∀ n, n < 10 → 0 < n → [Nat.digitChar n].head? ≠ some '0' := by decide
      exact hall n hlt hn
    · rw [Nat.toDigits_of_base_le (by omega) (by omega), List.head?_append]
      have hrec := ih (n / 10) (by omega) (by omega)
      cases hd : Nat.toDigits 10 (n / 10) with
      | nil => exact absurd hd Nat.toDigits_ne_nil
      | cons c cs =>
        rw [hd] at hrec
        simpa using hrec

/-- The decimal digits of a number write it as a natural number. -/
theorem isNatural_toDigits (n : ℕ) : isNatural (Nat.toDigits 10 n) = true := by
  have hall : (Nat.toDigits 10 n).all Char.isDigit = true :=
    List.all_eq_true.mpr (fun c hc => Nat.isDigit_of_mem_toDigits (by omega) (by omega) hc)
  rcases Nat.eq_zero_or_pos n with rfl | hn
  · decide
  · have hhead := head_toDigits_ne_zero hn
    unfold isNatural
    cases hd : Nat.toDigits 10 n with
    | nil => exact absurd hd Nat.toDigits_ne_nil
    | cons c cs =>
      rw [hd] at hall hhead
      cases cs with
      | nil => simpa using hall
      | cons d ds =>
        rw [Bool.and_eq_true]
        refine ⟨hall, ?_⟩
        simpa using hhead

/-- **The digits of a natural number are read back.** -/
theorem parseNumber_toDigits (n : ℕ) {rest : List Char} (hrest : EndsNumber rest) :
    parseNumber (Nat.toDigits 10 n ++ rest) = some (.nat n, rest) := by
  have hdigits : ∀ c ∈ Nat.toDigits 10 n, isNumberChar c = true := fun c hc => by
    have := Nat.isDigit_of_mem_toDigits (by omega) (by omega) hc
    simp [isNumberChar, this]
  have htake : rest.takeWhile isNumberChar = [] := by
    cases rest with
    | nil => rfl
    | cons c rest => rw [List.takeWhile_cons, hrest c rfl]; rfl
  have hdrop : rest.dropWhile isNumberChar = rest := by
    cases rest with
    | nil => rfl
    | cons c rest => rw [List.dropWhile_cons, hrest c rfl]; rfl
  unfold parseNumber
  simp only [List.takeWhile_append_of_pos hdigits, List.dropWhile_append_of_pos hdigits, htake,
    hdrop, List.append_nil, isNatural_toDigits, if_true, Nat.ofDigitChars_ten_toDigits]

/-! ## Reading undoes writing -/

theorem writeItems_eq_map (items : List Json) : writeItems items = items.map write := by
  induction items with
  | nil => rfl
  | cons x xs ih => rw [writeItems, ih, List.map_cons]

theorem writeMembers_eq_map (ms : List (String × Json)) :
    writeMembers ms = ms.map (fun m => quote m.fst ++ ':' :: write m.snd) := by
  induction ms with
  | nil => rfl
  | cons m ms ih => rw [writeMembers, ih, List.map_cons]

theorem skipSpace_cons {c : Char} (h : isSpace c = false) (cs : List Char) :
    skipSpace (c :: cs) = c :: cs := by
  unfold skipSpace
  rw [List.dropWhile_cons, h]
  rfl

/-- White space in front of a text makes no difference to a reader that drops
it. -/
theorem skipSpace_append {blanks : List Char} (h : ∀ c ∈ blanks, isSpace c = true)
    (cs : List Char) : skipSpace (blanks ++ cs) = skipSpace cs := by
  unfold skipSpace
  induction blanks with
  | nil => rfl
  | cons c blanks ih =>
    rw [List.cons_append, List.dropWhile_cons, if_pos (h c List.mem_cons_self)]
    exact ih (fun d hd => h d (List.mem_cons_of_mem c hd))

/-- White space ends a number. -/
theorem isNumberChar_of_isSpace {c : Char} (h : isSpace c = true) : isNumberChar c = false := by
  have hc : c.toNat = 0x20 ∨ c.toNat = 0x09 ∨ c.toNat = 0x0a ∨ c.toNat = 0x0d := by
    simpa [isSpace, or_assoc] using h
  have hof : c = Char.ofNat c.toNat := (Char.ofNat_toNat c).symm
  rcases hc with hc | hc | hc | hc <;>
    (rw [hof, hc]; decide)

theorem endsNumber_append {blanks : List Char} (h : ∀ c ∈ blanks, isSpace c = true)
    {rest : List Char} (hrest : EndsNumber rest) : EndsNumber (blanks ++ rest) := by
  cases blanks with
  | nil => exact hrest
  | cons c cs => exact endsNumber_cons (isNumberChar_of_isSpace (h c List.mem_cons_self)) _

/-- A character of a number is no white space. -/
theorem isSpace_of_isDigit {c : Char} (h : c.isDigit = true) : isSpace c = false := by
  have hc : (48 : UInt32) ≤ c.val ∧ c.val ≤ 57 := by simpa [Char.isDigit] using h
  have h₁ : 48 ≤ c.toNat := hc.1
  simp only [isSpace, Bool.or_eq_false_iff, decide_eq_false_iff_not]
  omega

/-- **A text that is read as a value**, given fuel for it: the reader takes the
text and leaves what follows, which must not go on with a number. -/
def Reads (j : Json) (text : List Char) : Prop :=
  ∀ fuel rest, text.length < fuel → EndsNumber rest →
    parseValue fuel (text ++ rest) = some (j, rest)

/-- A value is read past white space. -/
theorem parseValue_append {blanks : List Char} (h : ∀ c ∈ blanks, isSpace c = true) (fuel : ℕ)
    (cs : List Char) : parseValue fuel (blanks ++ cs) = parseValue fuel cs := by
  cases fuel with
  | zero => rfl
  | succ fuel => rw [parseValue, parseValue, skipSpace_append h]

theorem Reads.append {j : Json} {text blanks : List Char} (hread : Reads j text)
    (h : ∀ c ∈ blanks, isSpace c = true) : Reads j (blanks ++ text) := by
  intro fuel rest hfuel hrest
  rw [List.length_append] at hfuel
  rw [List.append_assoc, parseValue_append h]
  exact hread fuel rest (by omega) hrest

/-- No value starts with a closing bracket. -/
theorem parseValue_eq_none {cs : List Char} (h : (skipSpace cs).head? = some ']') (fuel : ℕ) :
    parseValue fuel cs = none := by
  cases fuel with
  | zero => rfl
  | succ fuel =>
    obtain ⟨rest, hrest⟩ := List.head?_eq_some_iff.mp h
    rw [parseValue, hrest]
    rfl

/-- The items of an array, with white space before the bracket that closes
it. -/
theorem parseItems_of_reads {items : List Json} {texts : List (List Char)}
    (h : List.Forall₂ Reads items texts) (hne : items ≠ []) {blanks : List Char}
    (hblanks : ∀ c ∈ blanks, isSpace c = true) (fuel : ℕ) (rest : List Char)
    (hfuel : (commaSeparated texts).length + 1 < fuel) :
    parseItems fuel (commaSeparated texts ++ (blanks ++ ']' :: rest)) = some (items, rest) := by
  induction h generalizing fuel with
  | nil => exact absurd rfl hne
  | @cons x text xs texts hx hxs ih =>
    obtain ⟨fuel, rfl⟩ : ∃ k, fuel = k + 1 := ⟨fuel - 1, by omega⟩
    cases hxs with
    | nil =>
      rw [commaSeparated] at hfuel ⊢
      rw [parseItems, hx fuel _ (by omega)
        (endsNumber_append hblanks (endsNumber_cons (by decide) rest))]
      simp [skipSpace_append hblanks, skipSpace_cons (show isSpace ']' = false by decide)]
    | cons hy hys =>
      simp only [commaSeparated, List.length_append, List.length_cons] at hfuel ih ⊢
      rw [List.append_assoc, List.cons_append, parseItems,
        hx fuel _ (by omega) (endsNumber_cons (by decide) _)]
      have hrec := ih (List.cons_ne_nil _ _) fuel (by omega)
      simp [skipSpace_cons (show isSpace ',' = false by decide), hrec]

/-- A text that is read as a member: white space, the name and the value. -/
def ReadsMember (m : String × Json) (text : List Char) : Prop :=
  ∃ blanks body, text = blanks ++ (quote m.fst ++ ':' :: body)
    ∧ (∀ c ∈ blanks, isSpace c = true) ∧ Reads m.snd body

/-- Reading a member reads its name and goes on with its value. -/
theorem parseMembers_eq {blanks : List Char} (hblanks : ∀ c ∈ blanks, isSpace c = true)
    (k : String) (fuel : ℕ) (cs : List Char) :
    parseMembers (fuel + 1) (blanks ++ (quote k ++ ':' :: cs)) = (do
      let (v, rest) ← parseValue fuel cs
      match skipSpace rest with
      | [] => none
      | c :: rest =>
        if c = '}' then some ([(k, v)], rest)
        else if c = ',' then do
          let (ms, rest) ← parseMembers fuel rest
          some ((k, v) :: ms, rest)
        else none) := by
  rw [parseMembers, skipSpace_append hblanks, quote]
  simp only [List.cons_append, List.append_assoc, List.nil_append,
    skipSpace_cons (show isSpace '"' = false by decide), if_true,
    parseString_flatMap_escape, Option.bind_eq_bind, Option.bind_some,
    skipSpace_cons (show isSpace ':' = false by decide), String.ofList_toList]

/-- The members of an object, with white space before the brace that closes
it. -/
theorem parseMembers_of_reads {ms : List (String × Json)} {texts : List (List Char)}
    (h : List.Forall₂ ReadsMember ms texts) (hne : ms ≠ []) {blanks : List Char}
    (hblanks : ∀ c ∈ blanks, isSpace c = true) (fuel : ℕ) (rest : List Char)
    (hfuel : (commaSeparated texts).length + 1 < fuel) :
    parseMembers fuel (commaSeparated texts ++ (blanks ++ '}' :: rest)) = some (ms, rest) := by
  induction h generalizing fuel with
  | nil => exact absurd rfl hne
  | @cons m text ms texts hm hms ih =>
    obtain ⟨fuel, rfl⟩ : ∃ k, fuel = k + 1 := ⟨fuel - 1, by omega⟩
    obtain ⟨indent, body, rfl, hindent, hbody⟩ := hm
    cases hms with
    | nil =>
      simp only [commaSeparated, List.length_append, List.length_cons] at hfuel
      rw [commaSeparated, List.append_assoc, List.append_assoc, List.cons_append,
        parseMembers_eq hindent, hbody fuel _ (by omega)
          (endsNumber_append hblanks (endsNumber_cons (by decide) rest))]
      simp [skipSpace_append hblanks, skipSpace_cons (show isSpace '}' = false by decide)]
    | cons hn hns =>
      simp only [commaSeparated, List.length_append, List.length_cons] at hfuel ih ⊢
      have hrec := ih (List.cons_ne_nil _ _) fuel (by omega)
      rw [List.append_assoc, List.cons_append, List.append_assoc, List.append_assoc,
        List.cons_append, parseMembers_eq hindent,
        hbody fuel _ (by omega) (endsNumber_cons (by decide) _)]
      simp [skipSpace_cons (show isSpace ',' = false by decide), hrec]

/-- **A text of an array**: texts of its items between brackets, with white
space before the one that closes it. The first item is no closing bracket, since
it is read as a value. -/
theorem reads_arr {items : List Json} {texts : List (List Char)}
    (h : List.Forall₂ Reads items texts) {blanks : List Char}
    (hblanks : ∀ c ∈ blanks, isSpace c = true) :
    Reads (.arr items) ('[' :: (commaSeparated texts ++ blanks ++ [']'])) := by
  intro fuel rest hfuel _
  obtain ⟨fuel, rfl⟩ : ∃ k, fuel = k + 1 := ⟨fuel - 1, by omega⟩
  simp only [List.length_cons, List.length_append, List.length_nil] at hfuel
  rw [List.cons_append, List.append_assoc, List.append_assoc, List.singleton_append, parseValue,
    skipSpace_cons (show isSpace '[' = false by decide)]
  rcases eq_or_ne items [] with rfl | hne
  · rw [List.forall₂_nil_left_iff.mp h]
    simp [commaSeparated, skipSpace_append hblanks,
      skipSpace_cons (show isSpace ']' = false by decide)]
  · have hread := parseItems_of_reads h hne hblanks fuel rest (by omega)
    have hopen : (skipSpace (commaSeparated texts ++ (blanks ++ ']' :: rest))).head?
        ≠ some ']' := by
      intro hclose
      cases fuel with
      | zero => cases hread
      | succ fuel =>
        rw [parseItems, parseValue_eq_none hclose] at hread
        cases hread
    simp [hopen, hread]

/-- **A text of an object**: texts of its members between braces, with white
space before the one that closes it. -/
theorem reads_obj {ms : List (String × Json)} {texts : List (List Char)}
    (h : List.Forall₂ ReadsMember ms texts) {blanks : List Char}
    (hblanks : ∀ c ∈ blanks, isSpace c = true) :
    Reads (.obj ms) ('{' :: (commaSeparated texts ++ blanks ++ ['}'])) := by
  intro fuel rest hfuel _
  obtain ⟨fuel, rfl⟩ : ∃ k, fuel = k + 1 := ⟨fuel - 1, by omega⟩
  simp only [List.length_cons, List.length_append, List.length_nil] at hfuel
  rw [List.cons_append, List.append_assoc, List.append_assoc, List.singleton_append, parseValue,
    skipSpace_cons (show isSpace '{' = false by decide)]
  rcases eq_or_ne ms [] with rfl | hne
  · rw [List.forall₂_nil_left_iff.mp h]
    simp [commaSeparated, skipSpace_append hblanks,
      skipSpace_cons (show isSpace '}' = false by decide)]
  · have hread := parseMembers_of_reads h hne hblanks fuel rest (by omega)
    have hopen : (skipSpace (commaSeparated texts ++ (blanks ++ '}' :: rest))).head?
        ≠ some '}' := by
      intro hclose
      obtain ⟨tail, htail⟩ := List.head?_eq_some_iff.mp hclose
      cases fuel with
      | zero => cases hread
      | succ fuel =>
        rw [parseMembers, htail] at hread
        cases hread
    simp [hopen, hread]

/-- A natural number is read back, of whatever size. -/
theorem reads_nat (n : ℕ) : Reads (.nat n) (write (.nat n)) := by
  intro fuel rest hfuel hrest
  obtain ⟨fuel, rfl⟩ : ∃ k, fuel = k + 1 := ⟨fuel - 1, by omega⟩
  have hread := parseNumber_toDigits n hrest
  unfold write
  cases hd : Nat.toDigits 10 n with
  | nil => exact absurd hd Nat.toDigits_ne_nil
  | cons c cs =>
    have hc : c.isDigit = true :=
      Nat.isDigit_of_mem_toDigits (by omega) (by omega) (hd ▸ List.mem_cons_self)
    rw [hd, List.cons_append] at hread
    rw [List.cons_append, parseValue, skipSpace_cons (isSpace_of_isDigit hc)]
    -- a digit opens none of the other values
    have hne : c ≠ '"' ∧ c ≠ '[' ∧ c ≠ '{' ∧ c ≠ 'n' ∧ c ≠ 't' ∧ c ≠ 'f' := by
      refine ⟨?_, ?_, ?_, ?_, ?_, ?_⟩ <;> (rintro rfl; revert hc; decide)
    simp only [if_neg hne.1, if_neg hne.2.1, if_neg hne.2.2.1, if_neg hne.2.2.2.1,
      if_neg hne.2.2.2.2.1, if_neg hne.2.2.2.2.2, hread]

theorem reads_null : Reads .null (write .null) := by
  intro fuel rest hfuel _
  obtain ⟨fuel, rfl⟩ : ∃ k, fuel = k + 1 := ⟨fuel - 1, by omega⟩
  simp [write, parseValue, skipSpace_cons (show isSpace 'n' = false by decide), parseLiteral]

theorem reads_bool (b : Bool) : Reads (.bool b) (write (.bool b)) := by
  intro fuel rest hfuel _
  obtain ⟨fuel, rfl⟩ : ∃ k, fuel = k + 1 := ⟨fuel - 1, by omega⟩
  cases b
  · simp [write, parseValue, skipSpace_cons (show isSpace 'f' = false by decide), parseLiteral]
  · simp [write, parseValue, skipSpace_cons (show isSpace 't' = false by decide), parseLiteral]

theorem reads_str (s : String) : Reads (.str s) (write (.str s)) := by
  intro fuel rest hfuel _
  obtain ⟨fuel, rfl⟩ : ∃ k, fuel = k + 1 := ⟨fuel - 1, by omega⟩
  simp [write, quote, parseValue, skipSpace_cons (show isSpace '"' = false by decide),
    parseString_flatMap_escape]

/-- The reader takes back what the writer wrote for `j`, given fuel for its
text. -/
def ReadsBack (j : Json) : Prop :=
  ∀ fuel rest, (write j).length < fuel → EndsNumber rest →
    parseValue fuel (write j ++ rest) = some (j, rest)

/-- **Reading a written value gives it back**, with the text after it. The
induction is on the document; the compact text has no white space anywhere. -/
theorem readsBack {j : Json} (h : IJson j) : ReadsBack j := by
  induction h with
  | null => exact reads_null
  | bool b => exact reads_bool b
  | @nat n _ => exact reads_nat n
  | str s => exact reads_str s
  | @arr items h ih =>
    have hitems : List.Forall₂ Reads items (writeItems items) := by
      rw [writeItems_eq_map, List.forall₂_map_right_iff]
      exact List.forall₂_same.mpr ih
    have hread := @reads_arr _ _ hitems [] (fun c hc => absurd hc List.not_mem_nil)
    rw [List.append_nil] at hread
    exact hread
  | @obj ms hnd h ih =>
    have hmembers : List.Forall₂ ReadsMember ms (writeMembers ms) := by
      rw [writeMembers_eq_map, List.forall₂_map_right_iff]
      exact List.forall₂_same.mpr (fun m hm =>
        ⟨[], _, rfl, fun c hc => absurd hc List.not_mem_nil, ih m hm⟩)
    have hread := @reads_obj _ _ hmembers [] (fun c hc => absurd hc List.not_mem_nil)
    rw [List.append_nil] at hread
    exact hread

/-- **Reading undoes writing.** -/
theorem parseText_write {j : Json} (h : IJson j) : parseText (write j) = some j := by
  have hread := readsBack h ((write j).length + 1) [] (by omega) endsNumber_nil
  rw [List.append_nil] at hread
  unfold parseText
  rw [hread]
  rfl

/-! ## Bytes -/

/-- The UTF-8 bytes of a text. -/
def utf8 (cs : List Char) : List UInt8 := cs.flatMap String.utf8EncodeChar

/-- The text some bytes encode in UTF-8, where they do. -/
def utf8Decode (bytes : List UInt8) : Option (List Char) :=
  bytes.toByteArray.utf8Decode?.map Array.toList

theorem utf8Decode_utf8 (cs : List Char) : utf8Decode (utf8 cs) = some cs := by
  have h : (utf8 cs).toByteArray = cs.utf8Encode := rfl
  unfold utf8Decode
  rw [h, List.utf8Decode?_utf8Encode]
  rfl

/-- In UTF-8 the byte of a line feed belongs to the line feed alone: the other
characters below 0x80 are their own byte, and every byte of a longer encoding
is at least 0x80. -/
theorem newline_notMem_utf8EncodeChar {c : Char} (hc : c.toNat ≠ 0x0a) :
    (0x0a : UInt8) ∉ String.utf8EncodeChar c := by
  have hne : ∀ v : ℕ, v % 256 ≠ 10 → (0x0a : UInt8) ≠ UInt8.ofNat v := by
    intro v hv heq
    have := congrArg UInt8.toNat heq
    rw [UInt8.toNat_ofNat'] at this
    exact hv this.symm
  have hval : c.val.toNat = c.toNat := rfl
  unfold String.utf8EncodeChar
  simp only [hval]
  split_ifs with h₁ h₂ h₃ <;>
    simp only [List.mem_cons, List.not_mem_nil, or_false, not_or]
  · exact hne _ (by omega)
  · exact ⟨hne _ (by omega), hne _ (by omega)⟩
  · exact ⟨hne _ (by omega), hne _ (by omega), hne _ (by omega)⟩
  · exact ⟨hne _ (by omega), hne _ (by omega), hne _ (by omega), hne _ (by omega)⟩

/-- **The bytes of a document**: its compact text in UTF-8. -/
def encode (j : Json) : List UInt8 := utf8 (write j)

/-- Read a document from bytes: UTF-8, then a text. -/
def parse (bytes : List UInt8) : Option Json :=
  (utf8Decode bytes).bind parseText

/-- **Reading bytes undoes writing them.** -/
theorem parse_encode {j : Json} (h : IJson j) : parse (encode j) = some j := by
  unfold parse encode
  rw [utf8Decode_utf8, Option.bind_some, parseText_write h]

/-- **The bytes of a document determine it.** -/
theorem encode_inj {i j : Json} (hi : IJson i) (hj : IJson j) :
    encode i = encode j ↔ i = j := by
  constructor
  · intro h
    have hparse := congrArg parse h
    rwa [parse_encode hi, parse_encode hj, Option.some.injEq] at hparse
  · rintro rfl
    rfl

/-! ## A written document is one line -/

/-- The character is no control character of the first block. -/
def isPrintable (c : Char) : Bool := decide (0x20 ≤ c.toNat)

theorem isPrintable_of_isDigit {c : Char} (h : c.isDigit = true) : isPrintable c = true := by
  have hval : (48 : UInt32) ≤ c.val ∧ c.val ≤ 57 := by simpa [Char.isDigit] using h
  have h₁ : 48 ≤ c.toNat := hval.1
  unfold isPrintable
  rw [decide_eq_true_iff]
  omega

theorem isPrintable_hexDigit {n : ℕ} (h : n < 16) : isPrintable (hexDigit n) = true := by
  have hall : ∀ n, n < 16 → isPrintable (hexDigit n) = true := by decide
  exact hall n h

theorem all_isPrintable_commaSeparated {texts : List (List Char)}
    (h : ∀ t ∈ texts, t.all isPrintable = true) :
    (commaSeparated texts).all isPrintable = true := by
  induction texts with
  | nil => rfl
  | cons t ts ih =>
    have ht := h t List.mem_cons_self
    have hts := ih (fun u hu => h u (List.mem_cons_of_mem t hu))
    cases ts with
    | nil => exact ht
    | cons u us =>
      unfold commaSeparated
      rw [List.all_append, List.all_cons, ht, hts]
      rfl

theorem all_isPrintable_escape (c : Char) : (escape c).all isPrintable = true := by
  unfold escape
  split_ifs with hquote hslash hb hf hn hr ht hctl
  · rfl
  · rfl
  · rfl
  · rfl
  · rfl
  · rfl
  · rfl
  · simp only [List.all_cons, List.all_nil,
      isPrintable_hexDigit (show c.toNat / 16 < 16 by omega),
      isPrintable_hexDigit (show c.toNat % 16 < 16 by omega)]
    rfl
  · simpa [isPrintable] using hctl

theorem all_isPrintable_quote (s : String) : (quote s).all isPrintable = true := by
  have hall : (s.toList.flatMap escape).all isPrintable = true := by
    rw [List.all_flatMap]
    exact List.all_eq_true.mpr (fun c _ => all_isPrintable_escape c)
  unfold quote
  rw [List.all_cons, List.all_append, hall]
  rfl

/-- **No control character survives the writer.** -/
theorem all_isPrintable_write {j : Json} (h : IJson j) :
    (write j).all isPrintable = true := by
  induction h with
  | null => rfl
  | bool b => cases b <;> rfl
  | nat _ =>
    exact List.all_eq_true.mpr (fun c hc => isPrintable_of_isDigit
      (Nat.isDigit_of_mem_toDigits (by omega) (by omega) hc))
  | str s => exact all_isPrintable_quote s
  | @arr items h ih =>
    have hitems : (commaSeparated (writeItems items)).all isPrintable = true := by
      rw [writeItems_eq_map]
      refine all_isPrintable_commaSeparated (fun t ht => ?_)
      obtain ⟨x, hx, rfl⟩ := List.mem_map.mp ht
      exact ih x hx
    unfold write
    rw [List.all_cons, List.all_append, hitems]
    rfl
  | @obj ms hnd h ih =>
    have hmembers : (commaSeparated (writeMembers ms)).all isPrintable = true := by
      rw [writeMembers_eq_map]
      refine all_isPrintable_commaSeparated (fun t ht => ?_)
      obtain ⟨m, hm, rfl⟩ := List.mem_map.mp ht
      rw [List.all_append, List.all_cons, all_isPrintable_quote, ih m hm]
      rfl
    unfold write
    rw [List.all_cons, List.all_append, hmembers]
    rfl

/-- **A written document is one line.** -/
theorem newline_notMem_encode {j : Json} (h : IJson j) :
    (0x0a : UInt8) ∉ encode j := by
  intro hmem
  rw [encode, utf8, List.mem_flatMap] at hmem
  obtain ⟨c, hc, hb⟩ := hmem
  have hprint : isPrintable c = true := List.all_eq_true.mp (all_isPrintable_write h) c hc
  rw [isPrintable, decide_eq_true_iff] at hprint
  exact newline_notMem_utf8EncodeChar (by omega) hb

/-- A written document is no empty line. -/
theorem encode_ne_nil {j : Json} (h : IJson j) : encode j ≠ [] := by
  intro hnil
  have hparse := parse_encode h
  rw [hnil] at hparse
  cases hparse

end Json
