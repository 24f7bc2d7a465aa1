import TraceGraph.Proofs.Record.Grammar
import TraceGraph.Record.Parser

/-!
# What a scan accepts

A grammar says which texts stand for which values, and a scan accepts a grammar if it
succeeds on exactly the streams that begin with one of the texts:

> `Accepts x g`: the scan `x` gives `a` and leaves `s'` if and only if some text of `a` in
> the
> grammar `g` has been taken off the front.

This is both soundness and completeness, and in addition it says that nothing behind the
text is looked at. `ByteStream.Past` is the bookkeeping: what is left, the same ending, and
an offset that is larger by the length of the text.

Acceptance is kept by everything that scans are built with. A sequence of scans accepts
texts behind each other (`Accepts.bind`), a repeated scan as many texts as it is repeated
(`Accepts.times`), and a choice the texts of the chosen grammar (`Accepts.ite`). The grammar
that comes out follows the scan and not the data, so `Accepts.congr` exchanges it for the
one that is meant.

The base case is a field (`accepts_field`): a token and its delimiter. It needs that no
token that stands for a value holds the delimiter, since the token would be cut there and
the rest be read as the next field.
-/

namespace TraceGraph

/-- The stream `s'` is what is left of `s` once `text` is taken off its front. -/
structure ByteStream.Past (s : ByteStream) (text : Bytes) (s' : ByteStream) : Prop where
  rest : s.rest = text ++ s'.rest
  ending : s'.ending = s.ending
  offset : s'.offset = s.offset + text.length

namespace ByteStream

theorem past_mk (text rest : Bytes) (ending : Ending) (offset : Nat) :
    Past ⟨text ++ rest, ending, offset⟩ text ⟨rest, ending, offset + text.length⟩ := ⟨rfl, rfl, rfl⟩

/-- The two streams from one another: what is taken off decides everything but what is left.
-/
theorem Past.eq_mk {s s' : ByteStream} {text : Bytes} (h : s.Past text s') :
    s = ⟨text ++ s'.rest, s.ending, s.offset⟩ ∧
      s' = ⟨s'.rest, s.ending, s.offset + text.length⟩ := by
  refine ⟨?_, ?_⟩
  · rw [← h.rest]
  · rw [← h.ending, ← h.offset]

/-- Taking off nothing leaves the stream as it is, offset included. -/
theorem past_nil_iff {s s' : ByteStream} : s.Past [] s' ↔ s' = s := by
  refine ⟨?_, ?_⟩
  · intro h
    obtain ⟨hs, hs'⟩ := h.eq_mk
    rw [hs', hs]
    rfl
  · intro h
    subst h
    exact ⟨rfl, rfl, rfl⟩

theorem Past.trans {s s₁ s' : ByteStream} {t₁ t₂ : Bytes} (h₁ : s.Past t₁ s₁)
    (h₂ : s₁.Past t₂ s') : s.Past (t₁ ++ t₂) s' where
  rest := by rw [h₁.rest, h₂.rest, List.append_assoc]
  ending := h₂.ending.trans h₁.ending
  offset := by rw [h₂.offset, h₁.offset, List.length_append, Nat.add_assoc]

/-- A text of two parts is taken off part by part. -/
theorem Past.exists_of_append {s s' : ByteStream} {t₁ t₂ : Bytes} (h : s.Past (t₁ ++ t₂) s') :
    ∃ s₁, s.Past t₁ s₁ ∧ s₁.Past t₂ s' := by
  refine ⟨⟨t₂ ++ s'.rest, s.ending, s.offset + t₁.length⟩, ⟨?_, rfl, rfl⟩, ⟨rfl, h.ending, ?_⟩⟩
  · rw [h.rest, List.append_assoc]
  · rw [h.offset, List.length_append, Nat.add_assoc]

/-- A closed token is the text up to the first delimiter. -/
theorem token_eq_closed_iff {delimiter : UInt8} {s s' : ByteStream} {text : Bytes} :
    s.token delimiter = (.ok ⟨text, true⟩, s') ↔
      delimiter ∉ text ∧ s.Past (text ++ [delimiter]) s' := by
  refine ⟨?_, ?_⟩
  · intro h
    unfold token at h
    split at h
    next d rest hdrop =>
      obtain ⟨htoken, rfl⟩ := Prod.mk.inj h
      have htext : s.rest.takeWhile (· != delimiter) = text :=
        (Token.mk.inj (Except.ok.inj htoken)).1
      have hrest := eq_takeWhile_append_of_dropWhile hdrop
      subst htext
      refine ⟨?_, ?_, rfl, ?_⟩
      · intro hmem
        -- a token ends before the first delimiter
        have hall := List.all_takeWhile (p := (· != delimiter)) (l := s.rest)
        exact absurd (List.all_eq_true.1 hall _ hmem) (by simp)
      · rw [List.append_assoc]
        exact hrest
      · rw [List.length_append]
        rfl
    next =>
      split at h
      · cases (Prod.mk.inj h).1
      · cases (Prod.mk.inj h).1
  · intro h
    obtain ⟨hmem, hpast⟩ := h
    obtain ⟨hs, hs'⟩ := hpast.eq_mk
    have htoken := token_append hmem s'.rest s.ending s.offset
    rw [hs, hs']
    rw [List.append_assoc, List.length_append]
    exact htoken

theorem nextByte_eq_some_iff {s s' : ByteStream} {b : UInt8} :
    s.nextByte = (.ok (some b), s') ↔ s.Past [b] s' := by
  refine ⟨?_, ?_⟩
  · intro h
    unfold nextByte at h
    split at h
    next b' rest hrest =>
      obtain ⟨hb, rfl⟩ := Prod.mk.inj h
      have hb : b' = b := Option.some.inj (Except.ok.inj hb)
      subst hb
      exact ⟨hrest, rfl, rfl⟩
    next =>
      split at h
      · cases (Prod.mk.inj h).1
      · cases (Prod.mk.inj h).1
  · intro h
    obtain ⟨hs, hs'⟩ := h.eq_mk
    rw [hs, hs']
    rfl

end ByteStream

namespace Grammar

variable {α β : Type}

/-- No text but the empty one, which stands for `a`. -/
inductive Empty (a : α) : Bytes → α → Prop
  | mk : Empty a [] a

/-- A text and, behind it, a text of a grammar that depends on the value of the first. -/
inductive Sequence (g : Grammar α) (g' : α → Grammar β) : Bytes → β → Prop
  | mk {t₁ t₂ : Bytes} {a : α} {b : β} (head : g t₁ a) (tail : g' a t₂ b) :
      Sequence g g' (t₁ ++ t₂) b

/-- A value that is computed from the one before it takes no text. -/
theorem sequence_empty_iff {g : Grammar α} {f : α → β} {text : Bytes} {b : β} :
    Sequence g (fun a => Empty (f a)) text b ↔ ∃ a, g text a ∧ b = f a := by
  refine ⟨?_, ?_⟩
  · intro h
    obtain ⟨hg, ⟨⟩⟩ := h
    rw [List.append_nil]
    exact ⟨_, hg, rfl⟩
  · intro h
    obtain ⟨a, hg, rfl⟩ := h
    rw [← List.append_nil text]
    exact .mk hg .mk

end Grammar

namespace Scan

open Grammar

variable {α β : Type}

/-- The scan succeeds on the streams that begin with a text of the grammar and on no others. -/
def Accepts (x : Scan α) (g : Grammar α) : Prop :=
  ∀ s a s', x s = (.ok a, s') ↔ ∃ text, g text a ∧ s.Past text s'

/-- Grammars with the same texts are accepted alike. -/
theorem Accepts.congr {x : Scan α} {g g' : Grammar α} (h : Accepts x g)
    (hg : ∀ text a, g text a ↔ g' text a) : Accepts x g' := by
  intro s a s'
  rw [h s a s']
  simp only [hg]

theorem accepts_pure (a : α) : Accepts (Pure.pure a) (Empty a) := by
  intro s b s'
  rw [pure_apply]
  refine ⟨?_, ?_⟩
  · intro h
    obtain ⟨hb, rfl⟩ := Prod.mk.inj h
    obtain rfl := Except.ok.inj hb
    exact ⟨[], .mk, ByteStream.past_nil_iff.2 rfl⟩
  · intro h
    obtain ⟨text, ⟨⟩, hpast⟩ := h
    rw [ByteStream.past_nil_iff.1 hpast]

/-- A scan and the one that depends on its value accept a text and a text behind it. The way
the text is split is found from left to right and given from right to left. -/
theorem Accepts.bind {x : Scan α} {f : α → Scan β} {g : Grammar α} {g' : α → Grammar β}
    (hx : Accepts x g) (hf : ∀ a, Accepts (f a) (g' a)) : Accepts (x >>= f) (Sequence g g') := by
  intro s b s'
  refine ⟨?_, ?_⟩
  · intro h
    obtain ⟨a, s₁, ha, hb⟩ := exists_of_bind_ok h
    obtain ⟨t₁, hg, hpast₁⟩ := (hx s a s₁).1 ha
    obtain ⟨t₂, hg', hpast₂⟩ := (hf a s₁ b s').1 hb
    exact ⟨t₁ ++ t₂, .mk hg hg', hpast₁.trans hpast₂⟩
  · intro h
    obtain ⟨text, ⟨hg, hg'⟩, hpast⟩ := h
    obtain ⟨s₁, hpast₁, hpast₂⟩ := hpast.exists_of_append
    rw [bind_ok ((hx _ _ _).2 ⟨_, hg, hpast₁⟩)]
    exact (hf _ _ _ _).2 ⟨_, hg', hpast₂⟩

/-- A scan that is chosen by a value accepts what the chosen one does. -/
theorem Accepts.ite {x y : Scan α} {g g' : Grammar α} (hx : Accepts x g) (hy : Accepts y g')
    (b : Bool) : Accepts (if b then x else y) fun text a => if b then g text a else g' text a := by
  cases b with
  | true => exact hx
  | false => exact hy

/-- A repeated scan accepts as many texts as it is repeated. -/
theorem Accepts.times {x : Scan α} {g : Grammar α} (h : Accepts x g) (count : Nat) :
    Accepts (x.times count) fun texts as => Repeated g texts as ∧ as.length = count := by
  -- by induction on the count, since that is what the repeated scan runs down
  induction count with
  | zero =>
    refine (accepts_pure ([] : List α)).congr ?_
    intro text as
    refine ⟨?_, ?_⟩
    · intro htexts
      cases htexts
      exact ⟨.nil, rfl⟩
    · intro htexts
      obtain ⟨hrepeated, hlength⟩ := htexts
      obtain rfl := List.eq_nil_of_length_eq_zero hlength
      cases hrepeated
      exact .mk
  | succ count ih =>
    refine (h.bind fun a => ih.bind fun as => accepts_pure (a :: as)).congr ?_
    intro text as
    refine ⟨?_, ?_⟩
    · intro htexts
      obtain ⟨hhead, ⟨⟨htail, rfl⟩, ⟨⟩⟩⟩ := htexts
      rw [List.append_nil]
      exact ⟨.cons hhead htail, rfl⟩
    · intro htexts
      obtain ⟨hrepeated, hlength⟩ := htexts
      cases hrepeated with
      | nil => cases hlength
      | @cons t ts a as hhead htail =>
        rw [← List.append_nil ts]
        exact .mk hhead (.mk ⟨htail, Nat.succ.inj hlength⟩ .mk)

/-! ## Fields -/

theorem closedText_eq_ok_iff {name : String} {t : Token} {s s' : ByteStream} {text : Bytes} :
    closedText name t s = (.ok text, s') ↔ t = ⟨text, true⟩ ∧ s' = s := by
  obtain ⟨bytes, closed⟩ := t
  unfold closedText
  cases closed with
  | true =>
    rw [if_pos rfl]
    refine ⟨?_, ?_⟩
    · intro h
      obtain ⟨htext, rfl⟩ := Prod.mk.inj h
      obtain rfl := Except.ok.inj htext
      exact ⟨rfl, rfl⟩
    · intro h
      obtain ⟨htoken, rfl⟩ := h
      rw [(Token.mk.inj htoken).1]
      rfl
  | false =>
    rw [if_neg Bool.false_ne_true]
    refine ⟨?_, ?_⟩
    · intro h
      cases (Prod.mk.inj h).1
    · intro h
      obtain ⟨htoken, -⟩ := h
      cases (Token.mk.inj htoken).2

/-- A field has a value if its token is closed and stands for one. Nothing is taken for
that. -/
theorem accept_eq_ok_iff {format : FieldFormat α} {name : String} {t : Token} {s s' : ByteStream}
    {a : α} :
    accept format name t s = (.ok a, s') ↔
      t.closed = true ∧ format.read? t.text = some a ∧ s' = s := by
  refine ⟨?_, ?_⟩
  · intro h
    obtain ⟨text, s₁, htext, hvalue⟩ := exists_of_bind_ok h
    obtain ⟨rfl, rfl⟩ := closedText_eq_ok_iff.1 htext
    cases hread : format.read? text with
    | none =>
      rw [hread] at hvalue
      cases (Prod.mk.inj hvalue).1
    | some a' =>
      rw [hread] at hvalue
      obtain ⟨ha, rfl⟩ := Prod.mk.inj hvalue
      obtain rfl := Except.ok.inj ha
      exact ⟨rfl, rfl, rfl⟩
  · obtain ⟨text, closed⟩ := t
    intro h
    obtain ⟨hclosed, hread, rfl⟩ := h
    have hclosed : closed = true := hclosed
    have hread : format.read? text = some a := hread
    subst hclosed
    unfold accept
    rw [bind_ok (closedText_eq_ok_iff.2 ⟨rfl, rfl⟩), hread]
    rfl

theorem token_eq_ok_iff {delimiter : UInt8} {s s' : ByteStream} {t : Token} :
    token delimiter s = (.ok t, s') ↔ s.token delimiter = (.ok t, s') := by
  unfold token
  cases h : s.token delimiter with
  | mk answer s₁ =>
    cases answer with
    | ok t' => simp
    | error failure => simp

theorem nextByte_eq_ok_iff {s s' : ByteStream} {b : Option UInt8} :
    nextByte s = (.ok b, s') ↔ s.nextByte = (.ok b, s') := by
  unfold nextByte
  cases h : s.nextByte with
  | mk answer s₁ =>
    cases answer with
    | ok b' => simp
    | error failure => simp

/-- A field is a token that stands for a value, closed by its delimiter. No token that stands for a
value may hold the delimiter, since it would be cut there. -/
theorem accepts_field {format : FieldFormat α} {delimiter : UInt8} {name : String} {g : Grammar α}
    (hread : ∀ text a, format.read? text = some a ↔ g text a)
    (hplain : ∀ text a, g text a → delimiter ∉ text) :
    Accepts (field format delimiter name) (Closed g delimiter) := by
  intro s a s'
  refine ⟨?_, ?_⟩
  · intro h
    obtain ⟨⟨text, closed⟩, s₁, htoken, haccept⟩ := exists_of_bind_ok h
    obtain ⟨hclosed, ha, rfl⟩ := accept_eq_ok_iff.1 haccept
    have hclosed : closed = true := hclosed
    subst hclosed
    have hpast := ByteStream.token_eq_closed_iff.1 (token_eq_ok_iff.1 htoken)
    exact ⟨text ++ [delimiter], .mk ((hread text a).1 ha), hpast.2⟩
  · intro h
    -- the token is not cut earlier, since no text of `g` holds the delimiter
    obtain ⟨_, @⟨text, _, hg⟩, hpast⟩ := h
    have htoken := ByteStream.token_eq_closed_iff.2 ⟨hplain text a hg, hpast⟩
    unfold field
    rw [bind_ok (token_eq_ok_iff.2 htoken)]
    exact accept_eq_ok_iff.2 ⟨rfl, (hread text a).2 hg, rfl⟩

end Scan

end TraceGraph
