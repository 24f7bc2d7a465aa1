import TraceGraph.Bytes

/-!
# Byte streams

A stream is read forward only, one token or one byte at a time, and knows how many bytes it
has given out. The number is what messages about a record refer to, so it is part of the
stream and not of whoever reads it.

A stream ends in one of two ways (`Ending`): nothing is left, or the source fails and keeps
failing. Running dry closes the last token early and is not an error; a failure always is
one, and the bytes it interrupts are lost without being counted.

What a token is depends on where the next delimiter stands, and three lemmas settle it: a
text without the delimiter and the delimiter behind it are one closed token
(`token_append`), such a text and nothing behind it are one open token (`token_of_not_mem`),
and no read makes the stream longer (`length_token_le`, `length_token_lt`,
`length_nextByte_le`). The last ones bound every loop that reads from a stream.
-/

namespace TraceGraph

/-- The source of a stream could not be read. -/
structure ReadFailure where
  reason : String
deriving DecidableEq, Repr

/-- What a reader finds behind the last byte of a stream. -/
inductive Ending where
  | complete
  | failing (reason : String)
deriving DecidableEq, Repr

/-- The bytes still to be read, and the number of those given out. -/
structure ByteStream where
  rest : Bytes
  ending : Ending := .complete
  offset : Nat := 0
deriving DecidableEq

/-- The bytes up to a delimiter, which is not part of the text, or up to the end of the stream. -/
structure Token where
  text : Bytes
  /-- Whether the delimiter was there. -/
  closed : Bool
deriving DecidableEq, Repr

namespace ByteStream

/-- Takes the bytes up to the first `delimiter` and the delimiter with them. -/
def token (delimiter : UInt8) (s : ByteStream) : Except ReadFailure Token × ByteStream :=
  let text := s.rest.takeWhile (· != delimiter)
  match s.rest.dropWhile (· != delimiter) with
  | _ :: rest => (.ok ⟨text, true⟩, { s with rest, offset := s.offset + text.length + 1 })
  | [] =>
    match s.ending with
    | .complete => (.ok ⟨text, false⟩, { s with rest := [], offset := s.offset + text.length })
    | .failing reason => (.error ⟨reason⟩, { s with rest := [] })

/-- Takes one byte, `none` at the end. -/
def nextByte (s : ByteStream) : Except ReadFailure (Option UInt8) × ByteStream :=
  match s.rest with
  | b :: rest => (.ok (some b), { s with rest, offset := s.offset + 1 })
  | [] =>
    match s.ending with
    | .complete => (.ok none, s)
    | .failing reason => (.error ⟨reason⟩, s)

/-- All bytes that are left. -/
def remaining (s : ByteStream) : Except ReadFailure Bytes :=
  match s.ending with
  | .complete => .ok s.rest
  | .failing reason => .error ⟨reason⟩

/-! ## Tokens -/

/-- A text is what stands before its first delimiter, the delimiter, and the rest. -/
theorem eq_takeWhile_append_of_dropWhile {delimiter : UInt8} {bytes rest : Bytes} {d : UInt8}
    (h : bytes.dropWhile (· != delimiter) = d :: rest) :
    bytes = bytes.takeWhile (· != delimiter) ++ delimiter :: rest := by
  have hd : d = delimiter := by
    have := List.head_dropWhile_not (· != delimiter) (l := bytes) (by simp [h])
    simpa [h] using this
  conv => lhs; rw [← List.takeWhile_append_dropWhile (p := (· != delimiter)) (l := bytes), h, hd]

/-- A text without the delimiter and the delimiter behind it are one closed token. -/
theorem token_append {delimiter : UInt8} {text : Bytes} (h : delimiter ∉ text) (rest : Bytes)
    (ending : Ending) (offset : Nat) :
    token delimiter ⟨text ++ delimiter :: rest, ending, offset⟩ =
      (.ok ⟨text, true⟩, ⟨rest, ending, offset + text.length + 1⟩) := by
  have hpos : ∀ b ∈ text, (b != delimiter) = true := fun b hb =>
    bne_iff_ne.2 fun e => h (e ▸ hb)
  simp [token, List.takeWhile_append_of_pos hpos, List.dropWhile_append_of_pos hpos]

/-- A text without the delimiter and nothing behind it are one open token. -/
theorem token_of_not_mem {delimiter : UInt8} {text : Bytes} (h : delimiter ∉ text) (offset : Nat) :
    token delimiter ⟨text, .complete, offset⟩ =
      (.ok ⟨text, false⟩, ⟨[], .complete, offset + text.length⟩) := by
  have hpos : ∀ b ∈ text, (b != delimiter) = true := fun b hb =>
    bne_iff_ne.2 fun e => h (e ▸ hb)
  have htake : text.takeWhile (· != delimiter) = text := by
    rw [← List.append_nil text, List.takeWhile_append_of_pos (by simpa using hpos)]
    rfl
  have hdrop : text.dropWhile (· != delimiter) = [] := by
    rw [← List.append_nil text, List.dropWhile_append_of_pos (by simpa using hpos)]
    rfl
  simp [token, htake, hdrop]

/-- Reading a token never makes the stream longer. -/
theorem length_token_le (delimiter : UInt8) (s : ByteStream) :
    (token delimiter s).2.rest.length ≤ s.rest.length := by
  simp only [token]
  split
  next d rest h =>
    have := congrArg List.length (eq_takeWhile_append_of_dropWhile h)
    simp only [List.length_append, List.length_cons] at this ⊢
    omega
  next => split <;> simp

/-- A closed token makes the stream shorter. -/
theorem length_token_lt {delimiter : UInt8} {s s' : ByteStream} {text : Bytes}
    (h : token delimiter s = (.ok ⟨text, true⟩, s')) : s'.rest.length < s.rest.length := by
  simp only [token] at h
  split at h
  next d rest hd =>
    have := congrArg List.length (eq_takeWhile_append_of_dropWhile hd)
    simp only [List.length_append, List.length_cons] at this
    obtain ⟨-, rfl⟩ := Prod.mk.inj h
    simp only
    omega
  next =>
    split at h
    · simp at h
    · simp at h

/-- Reading a byte never makes the stream longer. -/
theorem length_nextByte_le (s : ByteStream) : s.nextByte.2.rest.length ≤ s.rest.length := by
  simp only [nextByte]
  split
  next h => simp [h]
  next h => split <;> simp

end ByteStream

end TraceGraph
