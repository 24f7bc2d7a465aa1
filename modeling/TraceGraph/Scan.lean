import TraceGraph.FieldFormat
import TraceGraph.Record.Error
import TraceGraph.Text.Utf8

/-!
# Scanning a stream

A scan takes something off the front of a stream or fails, and in both cases leaves the
stream where it stopped; what follows a failure is read from there. So a scan is a function
that returns an answer and a stream, and failing is an answer like any other. Scans form a
monad, in which a sequence stops at the first failure.

From the tokens and the bytes of a stream the module builds the reading of a field in three
steps: a token is taken, it has to be closed by its delimiter (`closedText`), and it has to
stand for a value of the field's format (`accept`). Whatever is wrong with it, the field is
named and its token shown.

One step of a sequence is described by `bind_ok` and `bind_error`, and taken apart again by
`exists_of_bind_ok`. No proof about a longer scan unfolds the monad.

`Scan.Shrinks` says that a scan never makes the stream longer. Every scan built here
satisfies it, with one lemma for each way of building, and that bounds every loop over
records.
-/

namespace TraceGraph

/-- Takes an `α` off a stream. -/
def Scan (α : Type) := ByteStream → Except RecordError α × ByteStream

namespace Scan

variable {α β : Type}

def pure (a : α) : Scan α := fun s => (.ok a, s)

/-- Runs a scan and, where that succeeds, the scan that depends on its result. -/
def bind (x : Scan α) (f : α → Scan β) : Scan β := fun s =>
  match x s with
  | (.ok a, s) => f a s
  | (.error e, s) => (.error e, s)

instance : Monad Scan where
  pure := pure
  bind := bind

/-- Fails and leaves the stream where it is. -/
def fail (e : RecordError) : Scan α := fun s => (.error e, s)

/-- A token as the stream gives it. -/
def token (delimiter : UInt8) : Scan Token := fun s =>
  match s.token delimiter with
  | (.ok t, s) => (.ok t, s)
  | (.error failure, s) => (.error (.stream failure), s)

/-- The next byte, `none` at the end of the stream. -/
def nextByte : Scan (Option UInt8) := fun s =>
  match s.nextByte with
  | (.ok b, s) => (.ok b, s)
  | (.error failure, s) => (.error (.stream failure), s)

/-- Fails because a field holds `text`. -/
def malformed (field : String) (text : Bytes) : Scan α :=
  fail (.malformed field (Utf8.lossy text))

/-- The text of a field, which has to be closed. -/
def closedText (field : String) (t : Token) : Scan Bytes :=
  if t.closed then pure t.text else malformed field t.text

/-- The value of a field, whose token has to be closed and to stand for a value. -/
def accept (format : FieldFormat α) (field : String) (t : Token) : Scan α := do
  let text ← closedText field t
  match format.read? text with
  | some a => pure a
  | none => malformed field text

/-- A closed field as text. -/
def text (delimiter : UInt8) (field : String) : Scan Bytes := do
  closedText field (← token delimiter)

/-- A closed field as a value. -/
def field (format : FieldFormat α) (delimiter : UInt8) (name : String) : Scan α := do
  accept format name (← token delimiter)

/-- The same scan `count` times over, the results in order. -/
def times (x : Scan α) : (count : Nat) → Scan (List α)
  | 0 => pure []
  | count + 1 => do
    let a ← x
    let as ← times x count
    return a :: as

/-! ## One step of a scan -/

/-- A sequence goes on where its first part succeeds. -/
theorem bind_ok {x : Scan α} {f : α → Scan β} {s s' : ByteStream} {a : α}
    (h : x s = (.ok a, s')) : (x >>= f) s = f a s' := by
  show bind x f s = _
  rw [bind, h]

/-- A sequence stops where its first part fails. -/
theorem bind_error {x : Scan α} {f : α → Scan β} {s s' : ByteStream} {e : RecordError}
    (h : x s = (.error e, s')) : (x >>= f) s = (.error e, s') := by
  show bind x f s = _
  rw [bind, h]

@[simp] theorem pure_apply (a : α) (s : ByteStream) : (Pure.pure a : Scan α) s = (.ok a, s) := rfl

/-- A scan that succeeds does so in both of its parts. -/
theorem exists_of_bind_ok {x : Scan α} {f : α → Scan β} {s s' : ByteStream} {b : β}
    (h : (x >>= f) s = (.ok b, s')) : ∃ a s₁, x s = (.ok a, s₁) ∧ f a s₁ = (.ok b, s') := by
  cases hx : x s with
  | mk r s₁ =>
    cases r with
    | ok a =>
      rw [bind_ok hx] at h
      exact ⟨a, s₁, rfl, h⟩
    | error e =>
      rw [bind_error hx] at h
      cases (Prod.mk.inj h).1

/-! ## Scans only consume -/

/-- A scan leaves no more to be read than it found. -/
def Shrinks (x : Scan α) : Prop := ∀ s, (x s).2.rest.length ≤ s.rest.length

theorem shrinks_pure (a : α) : Shrinks (Pure.pure a : Scan α) := fun _ => Nat.le_refl _

theorem shrinks_fail (e : RecordError) : Shrinks (fail e : Scan α) := fun _ => Nat.le_refl _

/-- A sequence only consumes if its parts do, whatever the first one found. -/
theorem Shrinks.bind {x : Scan α} {f : α → Scan β} (hx : Shrinks x) (hf : ∀ a, Shrinks (f a)) :
    Shrinks (x >>= f) := by
  intro s
  have h := hx s
  cases hs : x s with
  | mk r s₁ =>
    rw [hs] at h
    cases r with
    | ok a =>
      rw [bind_ok hs]
      exact Nat.le_trans (hf a s₁) h
    | error e =>
      rw [bind_error hs]
      exact h

/-- Taking a token only consumes. -/
theorem shrinks_token (delimiter : UInt8) : Shrinks (token delimiter) := by
  intro s
  have h := s.length_token_le delimiter
  rw [token]
  split
  all_goals
    next heq => rw [heq] at h; exact h

/-- Taking a byte only consumes. -/
theorem shrinks_nextByte : Shrinks nextByte := by
  intro s
  have h := s.length_nextByte_le
  rw [nextByte]
  split
  all_goals
    next heq => rw [heq] at h; exact h

theorem shrinks_closedText (name : String) (t : Token) : Shrinks (closedText name t) := by
  rw [closedText]
  split
  · exact shrinks_pure _
  · exact shrinks_fail _

/-- Whether a token is accepted has no influence on the stream. -/
theorem shrinks_accept (format : FieldFormat α) (name : String) (t : Token) :
    Shrinks (accept format name t) := by
  refine (shrinks_closedText name t).bind fun text => ?_
  split
  · exact shrinks_pure _
  · exact shrinks_fail _

/-- Reading a field only consumes. -/
theorem shrinks_field (format : FieldFormat α) (delimiter : UInt8) (name : String) :
    Shrinks (field format delimiter name) :=
  (shrinks_token delimiter).bind (shrinks_accept format name)

/-- A repetition only consumes if its item does. -/
theorem Shrinks.times {x : Scan α} (h : Shrinks x) (count : Nat) : Shrinks (x.times count) := by
  induction count with
  | zero => exact shrinks_pure _
  | succ count ih => exact h.bind fun _ => ih.bind fun _ => shrinks_pure _

end Scan

end TraceGraph
