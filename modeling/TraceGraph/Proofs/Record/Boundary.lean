import Mathlib.Data.List.Basic
import TraceGraph.Proofs.Record.Truncation

/-!
# Where a record ends

The text of a record holds one closing brace, and that is its last byte
(`Spelled.exists_append`). So the end of a record can be found without reading it, and two
texts that are equal as a whole are equal piece by piece. This module collects the ways in
which a text is cut:

* at its first delimiter, like a token (`Bytes.eq_of_append_cons`), or at its last one;

* where a scan ends, since a scan finds one text at the front at most
  (`Scan.Accepts.split`);

* at the first closing brace, where a record ends (`Spelled.eq_of_prefix`).

A text that ends in its only brace is the one text at its front that can be a record, and if
it is none, it is malformed, whatever stands behind it (`exists_malformed_of_not_spelled`).
The last comma is of use as well. Between it and the brace stands the mutation of an
internal record and nothing of an external one, so the end of a text also tells the two
kinds apart (`KindSpelled.isExternal_eq`).

The lemmas in between say of each grammar which bytes its texts do not hold and what they
end in. They follow the grammars from the tokens upwards, and each is used by the next.
-/

namespace TraceGraph

open Grammar

/-- What a scan accepts at the front of a text is determined by the text. -/
theorem Scan.Accepts.split {α : Type} {x : Scan α} {g : Grammar α} (hx : x.Accepts g)
    {t t' rest rest' : Bytes} {a a' : α} (h : g t a) (h' : g t' a')
    (heq : t ++ rest = t' ++ rest') : t = t' ∧ a = a' ∧ rest = rest' := by
  have hscan := (hx _ _ _).2 ⟨t, h, ByteStream.past_mk t rest .complete 0⟩
  have hscan' := (hx _ _ _).2 ⟨t', h', ByteStream.past_mk t' rest' .complete 0⟩
  rw [heq, hscan'] at hscan
  obtain ⟨ha, hs⟩ := Prod.mk.inj hscan
  obtain rfl : rest' = rest := congrArg ByteStream.rest hs
  exact ⟨List.append_cancel_right heq, (Except.ok.inj ha).symm, rfl⟩

/-- Two texts that are cut at their first delimiter. -/
theorem Bytes.eq_of_append_cons {delimiter : UInt8} {text text' rest rest' : Bytes}
    (h : delimiter ∉ text) (h' : delimiter ∉ text')
    (heq : text ++ delimiter :: rest = text' ++ delimiter :: rest') :
    text = text' ∧ rest = rest' := by
  have htoken := ByteStream.token_append h rest .complete 0
  rw [heq, ByteStream.token_append h'] at htoken
  obtain ⟨ht, hs⟩ := Prod.mk.inj htoken
  exact ⟨(Token.mk.inj (Except.ok.inj ht)).1.symm, (congrArg ByteStream.rest hs).symm⟩

/-- Two texts that are cut at their last delimiter. -/
theorem Bytes.eq_of_append_cons_last {delimiter : UInt8} {front front' text text' : Bytes}
    (h : delimiter ∉ text) (h' : delimiter ∉ text')
    (heq : front ++ delimiter :: text = front' ++ delimiter :: text') :
    front = front' ∧ text = text' := by
  -- read from behind, the last delimiter is the first
  have hreverse := congrArg List.reverse heq
  simp only [List.reverse_append, List.reverse_cons, List.append_assoc, List.singleton_append]
    at hreverse
  obtain ⟨htext, hfront⟩ :=
    eq_of_append_cons (by rwa [List.mem_reverse]) (by rwa [List.mem_reverse]) hreverse
  exact ⟨List.reverse_injective hfront, List.reverse_injective htext⟩

namespace Grammar

variable {α : Type} {g : Grammar α} {b delimiter : UInt8}

/-! ## Bytes that a text does not hold -/

/-- A closed token holds its delimiter and the bytes of the token. -/
theorem Closed.not_mem (hg : ∀ token a, g token a → b ∉ token) (hb : b ≠ delimiter) {text : Bytes}
    {a : α} (h : Closed g delimiter text a) : b ∉ text := by
  obtain ⟨htoken⟩ := h
  rw [List.mem_append, List.mem_singleton, not_or]
  exact ⟨hg _ _ htoken, hb⟩

theorem Repeated.not_mem (hg : ∀ text a, g text a → b ∉ text) {texts : Bytes} {as : List α}
    (h : Repeated g texts as) : b ∉ texts := by
  induction h with
  | nil => exact List.not_mem_nil
  | cons head tail ih =>
    rw [List.mem_append, not_or]
    exact ⟨hg _ _ head, ih⟩

/-- A plus, a minus and digits are all that a number is made of. -/
structure NoNumeral (b : UInt8) : Prop where
  digit : Decimal.isDigit b = false
  plus : b ≠ 43
  minus : b ≠ 45

theorem noNumeral_closer : NoNumeral closer := ⟨by decide, by decide, by decide⟩

theorem noNumeral_comma : NoNumeral comma := ⟨by decide, by decide, by decide⟩

theorem NoNumeral.unsigned32 (hb : NoNumeral b) (text : Bytes) (n : UInt32)
    (h : Grammar.unsigned32 text n) : b ∉ text := Decimal.Unsigned.not_mem h hb.digit hb.plus

theorem NoNumeral.unsigned64 (hb : NoNumeral b) (text : Bytes) (n : UInt64)
    (h : Grammar.unsigned64 text n) : b ∉ text := Decimal.Unsigned.not_mem h hb.digit hb.plus

theorem NoNumeral.signed32 (hb : NoNumeral b) (text : Bytes) (n : Int32)
    (h : Grammar.signed32 text n) : b ∉ text :=
  Decimal.Signed.not_mem h hb.digit hb.plus hb.minus

/-- A list without braces in its items has none at all, since its count has none. -/
theorem Counted.closer_not_mem (hg : ∀ text a, g text a → closer ∉ text) {text : Bytes}
    {as : List α} (h : Counted g text as) : closer ∉ text := by
  obtain ⟨hcount, hitems, -⟩ := h
  rw [List.mem_append, not_or]
  exact ⟨hcount.not_mem noNumeral_closer.unsigned32 (by decide), hitems.not_mem hg⟩

/-- Whatever bytes an argument has, their code has no brace. -/
theorem Argument.closer_not_mem (text : Bytes) (argument : Int32 × Bytes)
    (h : Argument text argument) : closer ∉ text := by
  obtain ⟨hposition, hvalue⟩ := h
  rw [List.mem_append, not_or]
  refine ⟨hposition.not_mem noNumeral_closer.signed32 (by decide),
    hvalue.not_mem ?_ (by decide)⟩
  intro token bytes htoken hmem
  rw [htoken.eq_encode] at hmem
  exact (Base64.encode_plain bytes closer hmem).2.2 rfl

/-- What distinguishes the kinds ends in a brace, and that is the only one. -/
theorem KindSpelled.exists_append {text : Bytes} {kind : Kind UInt32} (h : KindSpelled text kind) :
    ∃ init, text = init ++ [closer] ∧ closer ∉ init := by
  cases h with
  | internal hmutation =>
    obtain @⟨token, mutation, htoken⟩ := hmutation
    refine ⟨[48, comma] ++ token, (List.append_assoc ..).symm, ?_⟩
    rw [List.mem_append, not_or]
    exact ⟨by decide, noNumeral_closer.unsigned32 _ _ htoken⟩
  | @external text calls hcalls =>
    refine ⟨[49, comma] ++ text, rfl, ?_⟩
    rw [List.mem_append, not_or]
    exact ⟨by decide, hcalls.closer_not_mem fun _ _ h =>
      h.closer_not_mem Argument.closer_not_mem⟩

/-! ## The last comma -/

/-- Items that end in a comma do so behind a text that does, also if there are none. -/
theorem Repeated.comma_suffix (hg : ∀ text a, g text a → [comma] <:+ text) {texts : Bytes}
    {as : List α} (h : Repeated g texts as) {front : Bytes} (hfront : [comma] <:+ front) :
    [comma] <:+ front ++ texts := by
  induction h generalizing front with
  | nil =>
    rw [List.append_nil]
    exact hfront
  | @cons text texts a as head tail ih =>
    rw [← List.append_assoc]
    exact ih ((hg text a head).trans (List.suffix_append front text))

theorem Closed.comma_suffix {text : Bytes} {a : α} (h : Closed g comma text a) :
    [comma] <:+ text := by
  obtain ⟨-⟩ := h
  exact List.suffix_append _ _

/-- A list ends in a comma: that of its last item or, without items, that of its count. -/
theorem Counted.comma_suffix (hg : ∀ text a, g text a → [comma] <:+ text) {text : Bytes}
    {as : List α} (h : Counted g text as) : [comma] <:+ text := by
  obtain ⟨hcount, hitems, -⟩ := h
  exact hitems.comma_suffix hg hcount.comma_suffix

/-- An argument ends in the comma behind its value. -/
theorem Argument.comma_suffix (text : Bytes) (argument : Int32 × Bytes)
    (h : Argument text argument) : [comma] <:+ text := by
  obtain ⟨-, hvalue⟩ := h
  exact hvalue.comma_suffix.trans (List.suffix_append _ _)

/-- Behind the last comma of a kind stands the mutation of an internal record, and only the brace of
an external one. -/
theorem KindSpelled.exists_last_comma {text : Bytes} {kind : Kind UInt32}
    (h : KindSpelled text kind) :
    ∃ front last, text = front ++ comma :: last ∧ comma ∉ last ∧
      (last = [closer] ↔ kind.isExternal = true) := by
  cases h with
  | @internal text mutation hmutation =>
    refine ⟨[48], text, rfl, hmutation.not_mem noNumeral_comma.unsigned32 (by decide), ?_⟩
    refine ⟨?_, nofun⟩
    intro hlast
    obtain @⟨token, _, htoken⟩ := hmutation
    obtain rfl : token = [] := List.append_cancel_right hlast
    -- a mutation has at least one digit
    cases htoken with
    | plain hnumeral => exact absurd rfl hnumeral.ne_nil
  | @external text calls hcalls =>
    obtain ⟨init, hinit⟩ := hcalls.comma_suffix fun _ _ h => h.comma_suffix Argument.comma_suffix
    refine ⟨[49, comma] ++ init, [closer], ?_, by decide, ?_⟩
    · rw [← hinit]
      simp only [List.append_assoc, List.singleton_append]
    · exact ⟨fun _ => rfl, fun _ => rfl⟩

/-- Kinds that end at the same place of a text are of the same kind. -/
theorem KindSpelled.isExternal_eq {front front' text text' : Bytes} {kind kind' : Kind UInt32}
    (h : KindSpelled text kind) (h' : KindSpelled text' kind')
    (heq : front ++ text = front' ++ text') : kind.isExternal = kind'.isExternal := by
  obtain ⟨init, last, rfl, hlast, hexternal⟩ := h.exists_last_comma
  obtain ⟨init', last', rfl, hlast', hexternal'⟩ := h'.exists_last_comma
  rw [← List.append_assoc, ← List.append_assoc] at heq
  obtain ⟨-, rfl⟩ := Bytes.eq_of_append_cons_last hlast hlast' heq
  exact Bool.eq_iff_iff.2 (hexternal.symm.trans hexternal')

end Grammar

namespace Record

/-! ## The end of a record -/

/-- A record ends in a brace, and that is the only one in it. -/
theorem Spelled.exists_append {text : Bytes} {r : Record UInt32} (h : Spelled text r) :
    ∃ init, text = init ++ [closer] ∧ closer ∉ init := by
  obtain @⟨t₀, _, _, _, hindex, hbody⟩ := h
  obtain @⟨t₁, t₂, t₃, t₄, t₅, t₆, t₇, t₈, t₉, t₁₀, _, _, _, _, _, _, _, _, _, _, ha, hb, hbmod,
    hconditional, hnodeMod, haddress, hexecutions, hincoming, houtgoing, hkind⟩ := hbody
  obtain ⟨init, rfl, hinit⟩ := hkind.exists_append
  have hsigned : ∀ {t : Bytes} {n : Int32}, Closed signed32 comma t n → closer ∉ t :=
    fun h => h.not_mem noNumeral_closer.signed32 (by decide)
  have hunsigned : ∀ {t : Bytes} {n : UInt64}, Closed unsigned64 comma t n → closer ∉ t :=
    fun h => h.not_mem noNumeral_closer.unsigned64 (by decide)
  have hlist : ∀ {t : Bytes} {list : List UInt32}, Counted (Closed unsigned32 comma) t list →
      closer ∉ t :=
    fun h => h.closer_not_mem fun _ _ h => h.not_mem noNumeral_closer.unsigned32 (by decide)
  refine ⟨t₀ ++ (t₁ ++ t₂ ++ t₃ ++ t₄ ++ t₅ ++ t₆ ++ t₇ ++ t₈ ++ t₉ ++ init), ?_, ?_⟩
  · simp only [List.append_assoc]
  · simp only [List.mem_append, not_or]
    exact ⟨hindex.not_mem noNumeral_closer.unsigned32 (by decide), ⟨⟨⟨⟨⟨⟨⟨⟨hsigned ha, hsigned hb⟩,
      hsigned hbmod⟩, hsigned hconditional⟩, hsigned hnodeMod⟩, hunsigned haddress⟩,
      hunsigned hexecutions⟩, hlist hincoming⟩, hlist houtgoing⟩, hinit⟩

/-- A record at the front of a text ends at the first closing brace. -/
theorem Spelled.eq_of_prefix {text init rest : Bytes} {r : Record UInt32} (h : Spelled text r)
    (hinit : closer ∉ init) (hleads : text <+: init ++ closer :: rest) :
    text = init ++ [closer] := by
  obtain ⟨front, rfl, hfront⟩ := h.exists_append
  obtain ⟨behind, heq⟩ := hleads
  rw [List.append_assoc, List.singleton_append] at heq
  rw [(Bytes.eq_of_append_cons hfront hinit heq).1]

/-- What ends in its only brace and is no record is malformed, whatever stands behind it. -/
theorem exists_malformed_of_not_spelled {init : Bytes} (hne : init ≠ []) (hinit : closer ∉ init)
    (h : ∀ r, ¬Spelled (init ++ [closer]) r) (rest : Bytes) (offset : Nat) :
    ∃ field token s',
      scan? ⟨init ++ [closer] ++ rest, .complete, offset⟩ =
        (.error (.malformed field token), s') := by
  rw [List.append_assoc, List.singleton_append]
  refine exists_malformed_of_not_prefix ?_ ?_ offset
  · intro hmarker
    obtain ⟨behind, heq⟩ := hmarker
    cases init with
    | nil => exact hne rfl
    | cons b bytes =>
      obtain rfl : closer = b := List.head_eq_of_cons_eq heq
      exact hinit (List.mem_cons_self ..)
  · intro text r hspelled hleads
    rw [hspelled.eq_of_prefix hinit hleads] at hspelled
    exact h r hspelled

end Record

end TraceGraph
