import TraceGraph.ByteStream
import TraceGraph.Disassembly
import TraceGraph.Text.Quoted

/-!
# Why a record cannot be read

A record is refused for its text, for the instruction it refers to, or because the store or
the stream behind it failed. The four causes stay apart, so that a failure to read is never
taken for a bad record, nor a bad record for an instruction that was not recorded.

An error of the first kind names the field and shows its token in quotes. The token comes
from the file and can be any bytes, so it is read as text with a replacement for what is no
text, and quoted with escapes for what could not be seen.
-/

namespace TraceGraph

/-- Why a record could not be read. -/
inductive RecordError where
  /-- The token of a field is not closed or stands for no value of the field. -/
  | malformed (field : String) (token : String)
  /-- The record refers to an instruction that is not recorded. -/
  | dangling (address : UInt64) (mutation : UInt32)
  /-- The instruction could not be looked up. -/
  | store (failure : StoreFailure)
  /-- The stream could not be read. -/
  | stream (failure : ReadFailure)
deriving DecidableEq, Repr

namespace RecordError

/-- What a message says of the error. -/
def message : RecordError → String
  | .malformed field token => s!"malformed {field}: " ++ Quoted.quote token
  | .dangling address mutation =>
    s!"no instruction at {Hexadecimal.address address} mutation {mutation.toNat}"
  | .store failure => failure.message
  | .stream failure => "stream error: " ++ failure.reason

end RecordError

end TraceGraph
