import TraceGraph.Metadata
import TraceGraph.Text.Numerals

/-!
# Metadata are read back

The metadata of a trace are a JSON object with four numbers. They are written by hand, line
by line, but read by a reader for the whole of JSON, in two passes: the text is cut into
tokens, and the tokens are put together to a value. This module shows that the reader gives
back what was written (`Metadata.parse?_render`), and so that a load sees the counts that
were saved.

The argument follows the first pass through the text. Three kinds of things stand in it.

* Blanks and punctuation are single characters. A blank vanishes (`tokens?_blank`), and any
  other character starts a token, which the tokens of the rest stand behind
  (`tokens?_take`).
* A number is one token, because a comma or a line feed ends it (`EndsNumber`). That its
  digits have the value of the number is by induction on the last digit; that it has no
  leading zero, which JSON forbids, too (`tokens?_natural`).
* A key is one token, because nothing in it has to be escaped (`IsPlain`, `tokens?_key`).

A member of the object is a key, a colon and a number (`tokens?_memberLine`), and the file
is four of them (`tokens?_render`). What is left is a list of tokens without variables other
than the four numbers, and the second pass computes.
-/

namespace TraceGraph

namespace Json

/-- A blank is skipped. -/
theorem tokens?_blank {c : Char} (h : isBlank c = true) (cs : List Char) :
    tokens? (c :: cs) = tokens? cs := by
  rw [tokens?, if_pos h]

/-- A character that is no blank starts a token, and the rest is cut on its own. -/
theorem tokens?_take {c : Char} {cs rest : List Char} {t : Token} (hc : isBlank c = false)
    (h : Token.take? c cs = some (t, rest)) :
    tokens? (c :: cs) = (tokens? rest).map (t :: ·) := by
  rw [tokens?, if_neg (by rw [hc]; exact Bool.false_ne_true)]
  split
  next h' =>
    rw [h] at h'
    cases h'
  next h' =>
    rw [h] at h'
    cases h'
    rfl

/-! ## Numbers -/

/-- The digits of a number stand for it. -/
theorem number_toDigits (n : Nat) : Digits.number 10 (Nat.toDigits 10 n) = n := by
  have hdigit : ∀ k < 10, (Digits.value? 10 (Nat.digitChar k)).getD 0 = k := by decide
  induction n using Decimal.lastDigitRec with
  | small n hn =>
    rw [Nat.toDigits_of_lt_base hn]
    show 10 * 0 + (Digits.value? 10 (Nat.digitChar n)).getD 0 = n
    rw [hdigit n hn, Nat.mul_zero, Nat.zero_add]
  | step n hn ih =>
    rw [Nat.toDigits_of_base_le (by decide) hn]
    unfold Digits.number at ih ⊢
    rw [List.foldl_append, ih, List.foldl_cons, List.foldl_nil,
      hdigit _ (Nat.mod_lt _ (by decide)), Nat.div_add_mod]

/-- The digits of a number do not start with a zero unless the number is zero. -/
theorem exists_toDigits_eq_cons (n : Nat) :
    ∃ d ds, Nat.toDigits 10 n = d :: ds ∧ (d = '0' → ds = [] ∧ n = 0) := by
  have hzero : ∀ k < 10, Nat.digitChar k = '0' → k = 0 := by decide
  induction n using Decimal.lastDigitRec with
  | small n hn =>
    refine ⟨_, _, Nat.toDigits_of_lt_base hn, fun hd => ⟨rfl, hzero n hn hd⟩⟩
  | step n hn ih =>
    obtain ⟨d, ds, heq, hd⟩ := ih
    refine ⟨d, ds ++ [Nat.digitChar (n % 10)], ?_, ?_⟩
    · rw [Nat.toDigits_of_base_le (by decide) hn, heq, List.cons_append]
    · intro h
      -- a leading zero would make the quotient zero, but the number has a second digit
      have hquot := (hd h).2
      omega

/-- A character behind a number that does not belong to it. -/
def EndsNumber (c : Char) : Prop := c.isDigit = false ∧ c ≠ '.' ∧ c ≠ 'e' ∧ c ≠ 'E'

instance (c : Char) : Decidable (EndsNumber c) :=
  inferInstanceAs (Decidable (c.isDigit = false ∧ c ≠ '.' ∧ c ≠ 'e' ∧ c ≠ 'E'))

/-- All digits of a number are taken, and nothing behind them. -/
theorem takeDigits?_toDigits (n : Nat) {c : Char} (hc : c.isDigit = false) (rest : List Char) :
    takeDigits? (Nat.toDigits 10 n ++ c :: rest) = some (Nat.toDigits 10 n, c :: rest) := by
  have hdigits : ∀ d ∈ Nat.toDigits 10 n, d.isDigit = true :=
    fun d hd => Nat.isDigit_of_mem_toDigits (by decide) (by decide) hd
  have hstop : ¬c.isDigit = true := by
    rw [hc]
    exact Bool.false_ne_true
  unfold takeDigits?
  rw [List.takeWhile_append_of_pos hdigits, List.dropWhile_append_of_pos hdigits,
    List.takeWhile_cons_of_neg hstop, List.dropWhile_cons_of_neg hstop, List.append_nil]
  cases h : Nat.toDigits 10 n with
  | nil => exact absurd h Nat.toDigits_ne_nil
  | cons d ds => rfl

/-- The part of a number in front of a point is the whole number. -/
theorem takeWhole?_toDigits (n : Nat) {c : Char} (hc : c.isDigit = false) (rest : List Char) :
    takeWhole? (Nat.toDigits 10 n ++ c :: rest) = some (n, c :: rest) := by
  have htake := takeDigits?_toDigits n hc rest
  obtain ⟨d, ds, heq, hd⟩ := exists_toDigits_eq_cons n
  rw [heq, List.cons_append] at htake ⊢
  -- a zero is read by a rule of its own, which takes no further digits
  by_cases hzero : d = '0'
  · obtain ⟨hds, hn⟩ := hd hzero
    subst hzero hds hn
    rw [List.nil_append, takeWhole?, List.head?_cons, Option.map_some, Option.getD_some, hc]
    rfl
  · rw [takeWhole?, htake, Option.map_some, ← heq]
    · dsimp only
      rw [number_toDigits]
    intro cs hcs
    exact hzero (List.cons.inj hcs).1

/-- A number that is followed neither by a point nor by an exponent is a natural one. -/
theorem takeUnsigned?_toDigits (n : Nat) {c : Char} (hc : EndsNumber c) (rest : List Char) :
    takeUnsigned? false (Nat.toDigits 10 n ++ c :: rest) = some (⟨false, n, true⟩, c :: rest) := by
  obtain ⟨hdigit, hdot, he, hE⟩ := hc
  have hfraction : takeFraction? (c :: rest) = some (false, c :: rest) := by
    rw [takeFraction?]
    intro cs hcs
    exact hdot (List.cons.inj hcs).1
  have hexponent : takeExponent? (c :: rest) = some (false, c :: rest) := by
    rw [takeExponent?, decide_eq_false he, decide_eq_false hE]
    rfl
  unfold takeUnsigned?
  rw [takeWhole?_toDigits n hdigit]
  dsimp only [bind, Option.bind]
  rw [hfraction]
  dsimp only
  rw [hexponent]
  rfl

/-- A digit starts a number. -/
theorem take?_of_isDigit {d : Char} (h : d.isDigit = true) (cs : List Char) :
    Token.take? d cs = (takeUnsigned? false (d :: cs)).map fun (n, cs) => (.number n, cs) := by
  rw [Token.take?.eq_def]
  split
  all_goals first
    | exact absurd h (by decide)
    | exact if_pos h

/-- A written number is one token. -/
theorem tokens?_natural (n : Nat) {c : Char} (hc : EndsNumber c) (rest : List Char) :
    tokens? (Nat.toDigits 10 n ++ c :: rest) =
      (tokens? (c :: rest)).map (.number ⟨false, n, true⟩ :: ·) := by
  have htake := takeUnsigned?_toDigits n hc rest
  obtain ⟨d, ds, heq, -⟩ := exists_toDigits_eq_cons n
  have hd : d.isDigit = true := by
    refine Nat.isDigit_of_mem_toDigits (b := 10) (n := n) (by decide) (by decide) ?_
    rw [heq]
    exact List.mem_cons_self ..
  have hblank : isBlank d = false := by
    have hne : ∀ b : Char, b.isDigit = false → decide (d = b) = false := by
      intro b hb
      refine decide_eq_false ?_
      intro hdb
      rw [hdb, hb] at hd
      cases hd
    unfold isBlank
    rw [hne ' ' rfl, hne '\n' rfl, hne '\t' rfl, hne '\r' rfl]
    rfl
  rw [heq, List.cons_append] at htake ⊢
  refine tokens?_take hblank ?_
  rw [take?_of_isDigit hd, htake]
  rfl

/-! ## Keys -/

/-- A character that stands for itself in a string. -/
def IsPlain (c : Char) : Prop := 32 ≤ c.toNat ∧ c ≠ '"' ∧ c ≠ '\\'

instance (c : Char) : Decidable (IsPlain c) :=
  inferInstanceAs (Decidable (32 ≤ c.toNat ∧ c ≠ '"' ∧ c ≠ '\\'))

theorem forall_isPlain {key : List Char} (h : key.all (fun c => decide (IsPlain c)) = true) :
    ∀ c ∈ key, IsPlain c := fun c hc => of_decide_eq_true (List.all_eq_true.1 h c hc)

/-- A string without escapes is read letter by letter, up to its quote. -/
theorem takeString?_plain {key : List Char} (h : ∀ c ∈ key, IsPlain c) (rest : List Char) :
    takeString? (key ++ '"' :: rest) = some (key.map Char.toNat, rest) := by
  induction key with
  | nil => rfl
  | cons c key ih =>
    obtain ⟨hcode, hquote, hslash⟩ := h c (List.mem_cons_self ..)
    have ih := ih fun d hd => h d (List.mem_cons_of_mem c hd)
    rw [List.cons_append, takeString?, if_neg (Nat.not_lt.2 hcode), ih]
    · rfl
    · exact fun hcs => hquote hcs
    · exact fun _ _ _ _ _ hcs _ => hslash hcs
    · exact fun _ _ hcs _ => hslash hcs

/-- A key is one token. -/
theorem tokens?_key {key : List Char} (h : ∀ c ∈ key, IsPlain c) (rest : List Char) :
    tokens? ('"' :: (key ++ '"' :: rest)) =
      (tokens? rest).map (.string (key.map Char.toNat) :: ·) := by
  refine tokens?_take rfl ?_
  show (takeString? (key ++ '"' :: rest)).map _ = _
  rw [takeString?_plain h]
  rfl

end Json

namespace Metadata

open Json

/-! ## The metadata file -/

/-- The tokens of one member, before those that stand behind it. -/
def memberTokens (key : String) (n : Nat) (tokens : List Json.Token) : List Json.Token :=
  .string (key.toList.map Char.toNat) :: .colon :: .number ⟨false, n, true⟩ :: tokens

/-- The line of a member is cut into its three tokens. -/
theorem tokens?_memberLine {key : String} (h : ∀ c ∈ key.toList, IsPlain c) (n : Nat) {c : Char}
    (hc : EndsNumber c) (rest : List Char) :
    tokens? ((memberLine key n).toList ++ c :: rest) =
      (tokens? (c :: rest)).map (memberTokens key n) := by
  have htext : (memberLine key n).toList ++ c :: rest =
      ' ' :: ' ' :: '"' ::
        (key.toList ++ '"' :: ':' :: ' ' :: (Nat.toDigits 10 n ++ c :: rest)) := by
    unfold memberLine
    simp only [String.toList_append, String.toList_ofList, List.append_assoc]
    rfl
  rw [htext, tokens?_blank rfl, tokens?_blank rfl, tokens?_key h, tokens?_take rfl rfl,
    tokens?_blank rfl, tokens?_natural n hc, Option.map_map, Option.map_map]
  rfl

theorem toList_render (m : Metadata) :
    m.render.toList =
      '\x7b' :: '\n' ::
      ((memberLine "version" m.version.toNat).toList ++ ',' :: '\n' ::
      ((memberLine "created_at" m.createdAt.toNat).toList ++ ',' :: '\n' ::
      ((memberLine "node_count" m.nodeCount.toNat).toList ++ ',' :: '\n' ::
      ((memberLine "external_count" m.externalCount.toNat).toList ++ '\n' :: ['\x7d'])))) := by
  unfold render
  simp only [String.toList_append, List.append_assoc]
  rfl

/-- The tokens of the metadata file. -/
theorem tokens?_render (m : Metadata) :
    tokens? m.render.toList = some (.openBrace ::
      memberTokens "version" m.version.toNat (.comma ::
      memberTokens "created_at" m.createdAt.toNat (.comma ::
      memberTokens "node_count" m.nodeCount.toNat (.comma ::
      memberTokens "external_count" m.externalCount.toNat [.closeBrace])))) := by
  have hend : tokens? ['\n', '\x7d'] = some [.closeBrace] := by
    rw [tokens?_blank rfl, tokens?_take rfl rfl, tokens?]
    rfl
  rw [toList_render, tokens?_take rfl rfl, tokens?_blank rfl,
    tokens?_memberLine (forall_isPlain (by decide)) _ (by decide),
    tokens?_take rfl rfl, tokens?_blank rfl,
    tokens?_memberLine (forall_isPlain (by decide)) _ (by decide),
    tokens?_take rfl rfl, tokens?_blank rfl,
    tokens?_memberLine (forall_isPlain (by decide)) _ (by decide),
    tokens?_take rfl rfl, tokens?_blank rfl,
    tokens?_memberLine (forall_isPlain (by decide)) _ (by decide), hend]
  rfl

theorem natural?_number {limit n : Nat} (h : n < limit) :
    natural? limit (.number ⟨false, n, true⟩) = some n := by
  rw [natural?, decide_eq_true h]
  rfl

/-- The numbers of the members are the fields again, as they are below their limits. -/
theorem ofMembers?_numbers (m : Metadata) :
    ofMembers? (.number ⟨false, m.version.toNat, true⟩) (.number ⟨false, m.createdAt.toNat, true⟩)
      (.number ⟨false, m.nodeCount.toNat, true⟩) (.number ⟨false, m.externalCount.toNat, true⟩) =
      some m := by
  unfold ofMembers?
  rw [natural?_number m.version.toNat_lt, natural?_number m.createdAt.toNat_lt,
    natural?_number m.nodeCount.toNat_lt, natural?_number m.externalCount.toNat_lt]
  dsimp only [bind, Option.bind]
  rw [UInt32.ofNat_toNat, UInt64.ofNat_toNat, UInt64.ofNat_toNat, UInt64.ofNat_toNat]

/-- What is written is what is read. -/
theorem parse?_render (m : Metadata) : parse? m.render = some m := by
  have hvalue : Value.parse? m.render.toList = some (.object [
      ("version".toList.map Char.toNat, .number ⟨false, m.version.toNat, true⟩),
      ("created_at".toList.map Char.toNat, .number ⟨false, m.createdAt.toNat, true⟩),
      ("node_count".toList.map Char.toNat, .number ⟨false, m.nodeCount.toNat, true⟩),
      ("external_count".toList.map Char.toNat, .number ⟨false, m.externalCount.toNat, true⟩)]) := by
    unfold Value.parse?
    rw [tokens?_render]
    rfl
  unfold parse?
  rw [hvalue]
  exact ofMembers?_numbers m

end Metadata

end TraceGraph
