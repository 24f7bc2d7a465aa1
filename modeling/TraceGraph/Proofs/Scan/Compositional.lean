import TraceGraph.Record.Parser

/-!
# Properties that scans keep

Every scan of a record is built from five things: a value, a complaint about a field, one
scan after another, a token and a single byte. A property that holds of these and is kept by
running one scan after another is called `Compositional`, and it holds of the scan of a
whole record:

> `Compositional.scan?`: what holds of the parts holds of `Record.scan?`.

The proof walks along the definition of the scan once, with one lemma for each of its parts.
So a new property of scans costs its five cases and nothing else, and a change of the record
format changes this walk and no property.

The first such property is `Textual`. A stream that can be read to its end gives a scan no
reason to fail but its text, since what a record refers to is asked for only when the record
has been read. Other modules add the properties that they need: that no store is asked
(`compositional_storeless`), and that what is left of a failing stream decides a scan or
starves it (`compositional_cut`).
-/

namespace TraceGraph

namespace Scan

/-- A property that holds of all that scans of records are built from. -/
structure Compositional (P : {α : Type} → Scan α → Prop) : Prop where
  pure : ∀ {α : Type} (a : α), P (Pure.pure a : Scan α)
  malformed : ∀ {α : Type} (field token : String), P (fail (.malformed field token) : Scan α)
  bind : ∀ {α β : Type} {x : Scan α} {f : α → Scan β}, P x → (∀ a, P (f a)) → P (x >>= f)
  token : ∀ delimiter, P (token delimiter)
  nextByte : P nextByte

namespace Compositional

variable {P : {α : Type} → Scan α → Prop} {α : Type}

/-- A field is refused if it is not closed or stands for no value, and otherwise has its
value. -/
theorem accept (h : Compositional P) (format : FieldFormat α) (name : String) (t : Token) :
    P (Scan.accept format name t) := by
  refine h.bind ?_ fun text => ?_
  · unfold closedText
    split
    · exact h.pure _
    · exact h.malformed _ _
  · split
    · exact h.pure _
    · exact h.malformed _ _

theorem times (h : Compositional P) {x : Scan α} (hx : P x) (count : Nat) : P (x.times count) := by
  induction count with
  | zero => exact h.pure _
  | succ count ih => exact h.bind hx fun _ => h.bind ih fun _ => h.pure _

/-- A field is a token and the check of its value. -/
theorem field (h : Compositional P) (field : Field) (format : FieldFormat α) :
    P (field.scan format) :=
  h.bind (h.token _) (h.accept _ _)

theorem neighbours (h : Compositional P) (count neighbour : Field) :
    P (Record.scanNeighbours count neighbour) :=
  h.bind (h.field _ _) fun _ => h.bind (h.times (h.field _ _) _) fun _ => h.pure _

theorem argument (h : Compositional P) : P Record.scanArgument :=
  h.bind (h.field _ _) fun _ => h.bind (h.field _ _) fun _ => h.pure _

theorem calls (h : Compositional P) : P Record.scanCalls :=
  h.bind (h.field _ _) fun _ => h.times (h.bind (h.field _ _) fun _ => h.times h.argument _) _

/-- The closing brace of an external record is read as a byte and complained about as a
field. -/
theorem terminator (h : Compositional P) : P Record.scanTerminator := by
  refine h.bind h.nextByte fun b => ?_
  split
  · exact h.malformed _ _
  · split
    · exact h.pure _
    · exact h.malformed _ _

/-- Whether the record is external decides how it goes on; both ways are built alike. -/
theorem kind (h : Compositional P) : P Record.scanKind := by
  refine h.bind (h.field _ _) fun external => ?_
  split
  · exact h.bind h.calls fun _ => h.bind h.terminator fun _ => h.pure _
  · exact h.bind (h.field _ _) fun _ => h.pure _

/-- Seven fields of one value each, two lists and what belongs to the kind. -/
theorem body (h : Compositional P) (index : UInt32) : P (Record.scanBody index) := by
  unfold Record.scanBody
  -- the fields from `a` to the executions
  iterate 7 refine h.bind (h.field _ _) fun _ => ?_
  exact h.bind (h.neighbours _ _) fun _ => h.bind (h.neighbours _ _) fun _ =>
    h.bind h.kind fun _ => h.pure _

/-- What holds of the parts of a record holds of the record. -/
theorem scan? (h : Compositional P) : P Record.scan? := by
  refine h.bind (h.token _) fun token => ?_
  split
  · exact h.pure _
  · exact h.bind (h.accept _ _ _) fun index => h.bind (h.body index) fun _ => h.pure _

end Compositional

/-! ## Failures on a complete stream -/

variable {α β : Type}

/-- On a complete stream the scan fails for the text of a field only, and what it leaves is a
complete stream again. -/
def Textual (x : Scan α) : Prop :=
  ∀ s, s.ending = .complete → (x s).2.ending = .complete ∧
    ∀ e, (x s).1 = .error e → ∃ field token, e = .malformed field token

/-- The first scan leaves a complete stream to the second, so neither fails for the stream.
-/
theorem Textual.bind {x : Scan α} {f : α → Scan β} (hx : Textual x) (hf : ∀ a, Textual (f a)) :
    Textual (x >>= f) := by
  intro s hs
  obtain ⟨hending, herror⟩ := hx s hs
  cases hxs : x s with
  | mk answer s₁ =>
    rw [hxs] at hending herror
    cases answer with
    | ok a =>
      rw [bind_ok hxs]
      exact hf a s₁ hending
    | error e =>
      rw [bind_error hxs]
      refine ⟨hending, ?_⟩
      intro e' he
      exact herror e' (congrArg Except.error (Except.error.inj he))

/-- A token of a complete stream is always found, closed or not. -/
theorem textual_token (delimiter : UInt8) : Textual (token delimiter) := by
  intro s hs
  unfold token ByteStream.token
  cases s.rest.dropWhile (· != delimiter) with
  | nil =>
    simp only [hs]
    exact ⟨trivial, nofun⟩
  | cons d rest => exact ⟨hs, nofun⟩

theorem textual_nextByte : Textual nextByte := by
  intro s hs
  unfold nextByte ByteStream.nextByte
  cases s.rest with
  | nil =>
    simp only [hs]
    exact ⟨trivial, nofun⟩
  | cons b rest => exact ⟨hs, nofun⟩

/-- A complete stream gives a record no reason to fail but a malformed field. -/
theorem compositional_textual : Compositional Textual where
  pure a := fun _ hs => ⟨hs, nofun⟩
  malformed field token := by
    intro s hs
    refine ⟨hs, ?_⟩
    intro e he
    exact ⟨field, token, (Except.error.inj he).symm⟩
  bind := Textual.bind
  token := textual_token
  nextByte := textual_nextByte

end Scan

end TraceGraph
