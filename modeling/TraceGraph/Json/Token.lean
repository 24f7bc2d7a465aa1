import TraceGraph.Text.Numerals

/-!
# JSON tokens

A JSON text is cut into tokens between which blanks may stand.

A token keeps what a reader of whole numbers and of texts has to know. Of a number these are
its sign, its whole part and whether a fraction or an exponent follows, for then it is none
of the whole numbers, whatever its value. Of a string these are its codes, in which a lone
surrogate can occur that is no character; whether there is one is found out only where the
text is asked for (`text?`), so a string that nobody looks at may have one.

The tokens are taken from the front by functions that return the rest (`Token.take?`).
Numbers follow the grammar of JSON to the letter: no leading zero, digits on both sides of
the point and in the exponent. In a string control characters have to be escaped.

The functions for the parts of a token are shown to take something (`length_of_takeDigits?`
and those that follow it), since `tokens?` goes on behind each token and has to come to an
end.
-/

namespace TraceGraph.Json

/-- A number by its sign, its whole part, and whether a fraction or an exponent follows. -/
structure Number where
  negative : Bool
  whole : Nat
  integral : Bool
deriving DecidableEq, Repr

/-- The smallest parts of a JSON text. -/
inductive Token where
  | openBrace
  | closeBrace
  | openBracket
  | closeBracket
  | colon
  | comma
  | null
  | bool (value : Bool)
  | number (value : Number)
  | string (codes : List Nat)
deriving DecidableEq, Repr

/-- Blanks stand between tokens. -/
def isBlank (c : Char) : Bool := c = ' ' || c = '\n' || c = '\t' || c = '\r'

/-- Takes one or more digits. -/
def takeDigits? (cs : List Char) : Option (List Char × List Char) :=
  match cs.takeWhile Char.isDigit with
  | [] => none
  | ds => some (ds, cs.dropWhile Char.isDigit)

/-- Takes the whole part of a number, which starts with a zero only if it is zero. -/
def takeWhole? : List Char → Option (Nat × List Char)
  | '0' :: cs => if (cs.head?.map Char.isDigit).getD false then none else some (0, cs)
  | cs => (takeDigits? cs).map fun (ds, cs) => (Digits.number 10 ds, cs)

/-- Drops the sign of an exponent. -/
def dropSign : List Char → List Char
  | '+' :: cs => cs
  | '-' :: cs => cs
  | cs => cs

/-- Takes an exponent, if there is one, and tells whether there was. -/
def takeExponent? : List Char → Option (Bool × List Char)
  | [] => some (false, [])
  | c :: cs =>
    if c = 'e' || c = 'E' then (takeDigits? (dropSign cs)).map fun (_, cs) => (true, cs)
    else some (false, c :: cs)

/-- Takes a fraction, if there is one, and tells whether there was. -/
def takeFraction? : List Char → Option (Bool × List Char)
  | '.' :: cs => (takeDigits? cs).map fun (_, cs) => (true, cs)
  | cs => some (false, cs)

/-- Takes a number without its sign. -/
def takeUnsigned? (negative : Bool) (cs : List Char) : Option (Number × List Char) := do
  let (whole, cs) ← takeWhole? cs
  let (fraction, cs) ← takeFraction? cs
  let (exponent, cs) ← takeExponent? cs
  some (⟨negative, whole, !fraction && !exponent⟩, cs)

/-- The code that four hexadecimal digits name. -/
def hexCode? (a b c d : Char) : Option Nat :=
  let ds := [a, b, c, d]
  if ds.all (Digits.isDigit 16) then some (Digits.number 16 ds) else none

/-- The code behind a backslash. -/
def escapedCode? : Char → Option Nat
  | '"' => some 34
  | '\\' => some 92
  | '/' => some 47
  | 'b' => some 8
  | 'f' => some 12
  | 'n' => some 10
  | 'r' => some 13
  | 't' => some 9
  | _ => none

/-- Takes the rest of a string and its closing quote. Control characters have to be escaped. -/
def takeString? : List Char → Option (List Nat × List Char)
  | [] => none
  | '"' :: cs => some ([], cs)
  | '\\' :: 'u' :: a :: b :: c :: d :: cs => do
    let code ← hexCode? a b c d
    let (codes, cs) ← takeString? cs
    some (code :: codes, cs)
  | '\\' :: c :: cs => do
    let code ← escapedCode? c
    let (codes, cs) ← takeString? cs
    some (code :: codes, cs)
  | c :: cs =>
    if c.toNat < 32 then none
    else do
      let (codes, cs) ← takeString? cs
      some (c.toNat :: codes, cs)

/-- Joins each pair of surrogates into the code that it stands for. -/
def joinSurrogates : List Nat → List Nat
  | high :: low :: codes =>
    if 0xD800 ≤ high ∧ high < 0xDC00 ∧ 0xDC00 ≤ low ∧ low < 0xE000 then
      (0x10000 + (high - 0xD800) * 1024 + (low - 0xDC00)) :: joinSurrogates codes
    else high :: joinSurrogates (low :: codes)
  | codes => codes

/-- The text of a string, unless a lone surrogate is left in it. -/
def text? (codes : List Nat) : Option String :=
  let codes := joinSurrogates codes
  if codes.all fun code => code.isValidChar then some (String.ofList (codes.map Char.ofNat))
  else none

/-- Takes the token that starts with a given character. -/
def Token.take? (first : Char) (cs : List Char) : Option (Token × List Char) :=
  match first, cs with
  | '\x7b', cs => some (.openBrace, cs)
  | '\x7d', cs => some (.closeBrace, cs)
  | '[', cs => some (.openBracket, cs)
  | ']', cs => some (.closeBracket, cs)
  | ':', cs => some (.colon, cs)
  | ',', cs => some (.comma, cs)
  | '"', cs => (takeString? cs).map fun (codes, cs) => (.string codes, cs)
  | 't', 'r' :: 'u' :: 'e' :: cs => some (.bool true, cs)
  | 'f', 'a' :: 'l' :: 's' :: 'e' :: cs => some (.bool false, cs)
  | 'n', 'u' :: 'l' :: 'l' :: cs => some (.null, cs)
  | '-', cs => (takeUnsigned? true cs).map fun (n, cs) => (.number n, cs)
  | c, cs =>
    if c.isDigit then (takeUnsigned? false (c :: cs)).map fun (n, cs) => (.number n, cs) else none

/-! ## Tokens are not empty -/

/-- One digit at least is taken. -/
theorem length_of_takeDigits? {cs rest ds : List Char} (h : takeDigits? cs = some (ds, rest)) :
    rest.length < cs.length := by
  have hsum := congrArg List.length (List.takeWhile_append_dropWhile (p := Char.isDigit) (l := cs))
  rw [List.length_append] at hsum
  rw [takeDigits?] at h
  cases hd : cs.takeWhile Char.isDigit with
  | nil => simp [hd] at h
  | cons d ds' =>
    simp only [hd, Option.some.injEq, Prod.mk.injEq] at h
    rw [hd, List.length_cons] at hsum
    rw [← h.2]
    omega

theorem length_dropSign_le (cs : List Char) : (dropSign cs).length ≤ cs.length := by
  rw [dropSign.eq_def]
  split
  · simp
  · simp
  · exact Nat.le_refl _

/-- A whole number takes a digit at least. -/
theorem length_of_takeWhole? {cs rest : List Char} {n : Nat} (h : takeWhole? cs = some (n, rest)) :
    rest.length < cs.length := by
  rw [takeWhole?.eq_def] at h
  split at h
  next => split at h <;> cases h; simp
  next =>
    obtain ⟨⟨ds, r⟩, hd, hr⟩ := Option.map_eq_some_iff.1 h
    cases hr
    exact length_of_takeDigits? hd

/-- A fraction may be empty. -/
theorem length_of_takeFraction? {cs rest : List Char} {b : Bool}
    (h : takeFraction? cs = some (b, rest)) : rest.length ≤ cs.length := by
  rw [takeFraction?.eq_def] at h
  split at h
  next =>
    obtain ⟨⟨ds, r⟩, hd, hr⟩ := Option.map_eq_some_iff.1 h
    cases hr
    have := length_of_takeDigits? hd
    simp only [List.length_cons]
    omega
  next => cases h; exact Nat.le_refl _

theorem length_of_takeExponent? {cs rest : List Char} {b : Bool}
    (h : takeExponent? cs = some (b, rest)) : rest.length ≤ cs.length := by
  cases cs with
  | nil => cases h; exact Nat.le_refl _
  | cons c cs =>
    rw [takeExponent?] at h
    split at h
    next =>
      obtain ⟨⟨ds, r⟩, hd, hr⟩ := Option.map_eq_some_iff.1 h
      cases hr
      have := length_of_takeDigits? hd
      have := length_dropSign_le cs
      simp only [List.length_cons]
      omega
    next => cases h; exact Nat.le_refl _

/-- A number takes a digit at least, as its whole part does. -/
theorem length_of_takeUnsigned? {cs rest : List Char} {negative : Bool} {n : Number}
    (h : takeUnsigned? negative cs = some (n, rest)) : rest.length < cs.length := by
  simp only [takeUnsigned?, Option.bind_eq_bind, Option.bind_eq_some_iff] at h
  obtain ⟨⟨whole, r₁⟩, h₁, ⟨fraction, r₂⟩, h₂, ⟨exponent, r₃⟩, h₃, h⟩ := h
  cases h
  exact Nat.lt_of_le_of_lt (length_of_takeExponent? h₃)
    (Nat.lt_of_le_of_lt (length_of_takeFraction? h₂) (length_of_takeWhole? h₁))

/-- No more is left behind a string than there was. -/
theorem length_of_takeString? {cs rest : List Char} {codes : List Nat}
    (h : takeString? cs = some (codes, rest)) : rest.length ≤ cs.length := by
  fun_induction takeString? cs generalizing codes rest with
  | case1 => cases h
  | case2 => cases h; simp
  | case3 a b c d cs ih =>
    simp only [Option.bind_eq_bind, Option.bind_eq_some_iff] at h
    obtain ⟨code, -, ⟨codes', r⟩, hr, h⟩ := h
    cases h
    have := ih hr
    simp only [List.length_cons]
    omega
  | case4 c cs hne ih =>
    simp only [Option.bind_eq_bind, Option.bind_eq_some_iff] at h
    obtain ⟨code, -, ⟨codes', r⟩, hr, h⟩ := h
    cases h
    have := ih hr
    simp only [List.length_cons]
    omega
  | case5 => cases h
  | case6 c cs _ _ _ _ ih =>
    simp only [Option.bind_eq_bind, Option.bind_eq_some_iff] at h
    obtain ⟨⟨codes', r⟩, hr, h⟩ := h
    cases h
    have := ih hr
    simp only [List.length_cons]
    omega

/-- A token takes its first character at least. -/
theorem Token.length_of_take? {first : Char} {cs rest : List Char} {t : Token}
    (h : Token.take? first cs = some (t, rest)) : rest.length ≤ cs.length := by
  have drop {t' : Token} {cs' : List Char} (h : some (t', cs') = some (t, rest))
      (hle : cs'.length ≤ cs.length) : rest.length ≤ cs.length := by cases h; exact hle
  rw [Token.take?.eq_def] at h
  split at h
  next => exact drop h (Nat.le_refl _)
  next => exact drop h (Nat.le_refl _)
  next => exact drop h (Nat.le_refl _)
  next => exact drop h (Nat.le_refl _)
  next => exact drop h (Nat.le_refl _)
  next => exact drop h (Nat.le_refl _)
  next =>
    obtain ⟨⟨codes, r⟩, hs, hr⟩ := Option.map_eq_some_iff.1 h
    cases hr
    exact length_of_takeString? hs
  next cs => exact drop h (by simp only [List.length_cons]; omega)
  next cs => exact drop h (by simp only [List.length_cons]; omega)
  next cs => exact drop h (by simp only [List.length_cons]; omega)
  next =>
    obtain ⟨⟨n, r⟩, hn, hr⟩ := Option.map_eq_some_iff.1 h
    cases hr
    exact Nat.le_of_lt (length_of_takeUnsigned? hn)
  next =>
    split at h
    next =>
      obtain ⟨⟨n, r⟩, hn, hr⟩ := Option.map_eq_some_iff.1 h
      cases hr
      exact Nat.le_of_lt_succ (length_of_takeUnsigned? hn)
    next => cases h

/-- All tokens of a text, `none` if some part of it is no token. -/
def tokens? : List Char → Option (List Token)
  | [] => some []
  | c :: cs =>
    if isBlank c then tokens? cs
    else
      match _h : Token.take? c cs with
      | none => none
      | some (t, rest) => (tokens? rest).map (t :: ·)
termination_by cs => cs.length
decreasing_by
  · exact Nat.lt_succ_self _
  · exact Nat.lt_succ_of_le (Token.length_of_take? _h)

end TraceGraph.Json
