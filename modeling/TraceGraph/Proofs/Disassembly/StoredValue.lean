import Mathlib.Data.List.Basic
import TraceGraph.Instruction.Stored

/-!
# Which stored values hold a list

A disk store keeps one value for each address. The file of the store can be damaged or can
come from anywhere else, so a value is arbitrary bytes, and the question is what it means to
the reader.

> `Stored.Holds bytes list`: the bytes begin with what is written for the list, and numbers
> and texts
> fit their fields.

Nothing is said there in terms of a reader. `Stored.decode?_eq_some_iff_holds` is the law
that the reader finds exactly these lists. A value that is cut short, has a length beyond
its end, a text that is no UTF-8 or a truth value other than 0 and 1 begins with nothing
that is ever written, so it holds no list; a value with something behind its list is read as
if it ended there.

The law is put together from one law for each part of a value, in the order in which they
stand there. Each of them has the same form: a part is read, with a rest, from exactly the
bytes that are written for it, followed by the rest. The parts are numbers
(`Bytes.takeLittleEndian?_eq_some_iff`, by induction on the number of bytes), texts
(`takeText?_eq_some_iff`), truth values (`takeBool?_eq_some_iff`), instructions
(`takeOne?_eq_some_iff`) and a given number of instructions (`takeMany?_eq_some_iff`, by
induction on it).
-/

namespace TraceGraph

namespace Bytes

/-- A number is read from exactly the bytes that are written for it. -/
theorem takeLittleEndian?_eq_some_iff {width n : Nat} {bytes rest : Bytes} :
    takeLittleEndian? width bytes = some (n, rest) ↔
      n < Nat.pow 256 width ∧ bytes = littleEndian width n ++ rest := by
  refine ⟨?_, ?_⟩
  · intro h
    induction width generalizing bytes n with
    | zero =>
      obtain ⟨rfl, rfl⟩ := Prod.mk.inj (Option.some.inj h)
      exact ⟨Nat.zero_lt_one, rfl⟩
    | succ width ih =>
      cases bytes with
      | nil => cases h
      | cons b bytes =>
        obtain ⟨⟨m, rest'⟩, hm, heq⟩ := Option.map_eq_some_iff.1 h
        obtain ⟨rfl, rfl⟩ := Prod.mk.inj heq
        obtain ⟨hlt, rfl⟩ := ih hm
        have hb := b.toNat_lt
        have hlow : (b.toNat + 256 * m) % 256 = b.toNat := by omega
        have hhigh : (b.toNat + 256 * m) / 256 = m := by omega
        refine ⟨?_, ?_⟩
        · show _ < Nat.pow 256 width * 256
          omega
        · show _ = UInt8.ofNat ((b.toNat + 256 * m) % 256) ::
            (littleEndian width ((b.toNat + 256 * m) / 256) ++ rest')
          rw [hlow, hhigh, UInt8.ofNat_toNat]
  · intro h
    obtain ⟨hlt, rfl⟩ := h
    exact takeLittleEndian?_append width n hlt rest

end Bytes

/-- A text is read from exactly its own bytes. -/
theorem Utf8.decode?_eq_some_iff_encode {bytes : Bytes} {text : String} :
    decode? bytes = some text ↔ bytes = encode text := by
  refine ⟨?_, ?_⟩
  · intro h
    unfold decode? String.fromUTF8? at h
    split at h
    next =>
      obtain rfl := Option.some.inj h
      rfl
    next => cases h
  · intro h
    rw [h]
    exact decode?_encode text

namespace Instruction.Stored

/-- A text is read from its length and its bytes. -/
theorem takeText?_eq_some_iff {bytes rest : Bytes} {text : String} :
    takeText? bytes = some (text, rest) ↔
      (Utf8.encode text).length < UInt64.size ∧ bytes = encodeText text ++ rest := by
  refine ⟨?_, ?_⟩
  · intro h
    unfold takeText? at h
    obtain ⟨⟨length, behind⟩, hnumber, hspelling⟩ := Option.bind_eq_some_iff.1 h
    obtain ⟨hlt, rfl⟩ := Bytes.takeLittleEndian?_eq_some_iff.1 hnumber
    dsimp only at hspelling
    split at hspelling
    next => cases hspelling
    next henough =>
      obtain ⟨text', hdecode, heq⟩ := Option.bind_eq_some_iff.1 hspelling
      obtain ⟨rfl, rfl⟩ := Prod.mk.inj (Option.some.inj heq)
      have hspelled := Utf8.decode?_eq_some_iff_encode.1 hdecode
      -- the length that was read is that of the text, as there were enough bytes for it
      have htaken : (Utf8.encode text').length = length := by
        rw [List.length_take] at henough
        rw [← hspelled, List.length_take]
        omega
      unfold encodeText
      dsimp only
      rw [htaken, ← hspelled, List.append_assoc, List.take_append_drop]
      exact ⟨hlt, rfl⟩
  · intro h
    obtain ⟨hlength, rfl⟩ := h
    exact takeText?_append hlength rest

/-- A truth value is read from one of two bytes. -/
theorem takeBool?_eq_some_iff {bytes rest : Bytes} {b : Bool} :
    takeBool? bytes = some (b, rest) ↔ bytes = b.toUInt8 :: rest := by
  refine ⟨?_, ?_⟩
  · intro h
    unfold takeBool? at h
    split at h
    next =>
      obtain ⟨rfl, rfl⟩ := Prod.mk.inj (Option.some.inj h)
      rfl
    next =>
      obtain ⟨rfl, rfl⟩ := Prod.mk.inj (Option.some.inj h)
      rfl
    next => cases h
  · intro h
    rw [h]
    cases b
    all_goals rfl

/-- An instruction is read from exactly the bytes that are written for it. -/
theorem takeOne?_eq_some_iff {bytes rest : Bytes} {ins : Instruction} :
    takeOne? bytes = some (ins, rest) ↔ Fits ins ∧ bytes = encodeOne ins ++ rest := by
  refine ⟨?_, ?_⟩
  · intro h
    unfold takeOne? at h
    obtain ⟨⟨address, _⟩, haddress, h⟩ := Option.bind_eq_some_iff.1 h
    obtain ⟨⟨mutation, _⟩, hmutation, h⟩ := Option.bind_eq_some_iff.1 h
    obtain ⟨⟨mnemonic, _⟩, hmnemonic, h⟩ := Option.bind_eq_some_iff.1 h
    obtain ⟨⟨operands, _⟩, hoperands, h⟩ := Option.bind_eq_some_iff.1 h
    obtain ⟨⟨size, _⟩, hsize, h⟩ := Option.bind_eq_some_iff.1 h
    obtain ⟨⟨conditional, _⟩, hconditional, h⟩ := Option.bind_eq_some_iff.1 h
    obtain ⟨rfl, rfl⟩ := Prod.mk.inj (Option.some.inj h)
    obtain ⟨hlt64, rfl⟩ := Bytes.takeLittleEndian?_eq_some_iff.1 haddress
    obtain ⟨hlt32, rfl⟩ := Bytes.takeLittleEndian?_eq_some_iff.1 hmutation
    obtain ⟨hfirst, rfl⟩ := takeText?_eq_some_iff.1 hmnemonic
    obtain ⟨hsecond, rfl⟩ := takeText?_eq_some_iff.1 hoperands
    obtain ⟨hlt8, rfl⟩ := Bytes.takeLittleEndian?_eq_some_iff.1 hsize
    obtain rfl := takeBool?_eq_some_iff.1 hconditional
    refine ⟨⟨hfirst, hsecond⟩, ?_⟩
    -- the size is read like a number of one byte but written as the byte that it is
    have hone : Bytes.littleEndian 1 size = [UInt8.ofNat size] := by
      show [UInt8.ofNat (size % 256)] = _
      rw [Nat.mod_eq_of_lt hlt8]
    unfold encodeOne
    rw [UInt64.toNat_ofNat_of_lt' hlt64, UInt32.toNat_ofNat_of_lt' hlt32, hone]
    simp only [List.append_assoc, List.cons_append, List.nil_append]
  · intro h
    obtain ⟨hfits, rfl⟩ := h
    exact takeOne?_append hfits rest

/-- As many instructions as asked for are read from exactly the bytes that are written for them. -/
theorem takeMany?_eq_some_iff {count : Nat} {bytes rest : Bytes} {list : List Instruction} :
    takeMany? count bytes = some (list, rest) ↔
      list.length = count ∧ (∀ ins ∈ list, Fits ins) ∧ bytes = list.flatMap encodeOne ++ rest := by
  refine ⟨?_, ?_⟩
  · intro h
    induction count generalizing bytes list with
    | zero =>
      obtain ⟨rfl, rfl⟩ := Prod.mk.inj (Option.some.inj h)
      exact ⟨rfl, nofun, rfl⟩
    | succ count ih =>
      unfold takeMany? at h
      obtain ⟨⟨ins, _⟩, hone, h⟩ := Option.bind_eq_some_iff.1 h
      obtain ⟨⟨others, _⟩, hmany, h⟩ := Option.bind_eq_some_iff.1 h
      obtain ⟨rfl, rfl⟩ := Prod.mk.inj (Option.some.inj h)
      obtain ⟨hfits, rfl⟩ := takeOne?_eq_some_iff.1 hone
      obtain ⟨rfl, hothers, rfl⟩ := ih hmany
      rw [List.flatMap_cons, List.append_assoc]
      exact ⟨rfl, List.forall_mem_cons.2 ⟨hfits, hothers⟩, rfl⟩
  · intro h
    obtain ⟨rfl, hfits, rfl⟩ := h
    exact takeMany?_append hfits rest

/-! ## Values and lists -/

/-- The value begins with what is written for the list. -/
structure Holds (bytes : Bytes) (list : List Instruction) : Prop where
  length_lt : list.length < UInt64.size
  fits : ∀ ins ∈ list, Fits ins
  leads : encode list <+: bytes

/-- The reader finds a list in exactly the values that hold it. -/
theorem decode?_eq_some_iff_holds {bytes : Bytes} {list : List Instruction} :
    decode? bytes = some list ↔ Holds bytes list := by
  refine ⟨?_, ?_⟩
  · intro h
    unfold decode? at h
    obtain ⟨⟨count, _⟩, hcount, h⟩ := Option.bind_eq_some_iff.1 h
    obtain ⟨⟨list', rest⟩, hmany, h⟩ := Option.bind_eq_some_iff.1 h
    obtain rfl := Option.some.inj h
    obtain ⟨hlt, rfl⟩ := Bytes.takeLittleEndian?_eq_some_iff.1 hcount
    obtain ⟨rfl, hfits, rfl⟩ := takeMany?_eq_some_iff.1 hmany
    exact ⟨hlt, hfits, rest, List.append_assoc ..⟩
  · intro h
    obtain ⟨rest, hrest⟩ := h.leads
    rw [← hrest]
    exact decode?_encode_append h.length_lt h.fits rest

/-- The reader refuses exactly the values that hold no list. -/
theorem decode?_eq_none_iff {bytes : Bytes} : decode? bytes = none ↔ ∀ list, ¬Holds bytes list := by
  rw [Option.eq_none_iff_forall_ne_some]
  exact forall_congr' fun list => not_congr decode?_eq_some_iff_holds

/-- The value that is written for a list holds it. -/
theorem holds_encode {list : List Instruction} (hlength : list.length < UInt64.size)
    (hfits : ∀ ins ∈ list, Fits ins) : Holds (encode list) list :=
  ⟨hlength, hfits, List.prefix_rfl⟩

/-- No instruction takes less room than its numbers and empty texts do. -/
theorem length_encodeOne (ins : Instruction) : 30 ≤ (encodeOne ins).length := by
  simp only [encodeOne, encodeText, List.length_append, Bytes.length_littleEndian,
    List.length_cons, List.length_nil]
  omega

/-- Instructions do not take less room together than each of them does alone. -/
theorem length_flatMap_encodeOne (list : List Instruction) :
    30 * list.length ≤ (list.flatMap encodeOne).length := by
  induction list with
  | nil => exact Nat.le_refl _
  | cons ins list ih =>
    have hone := length_encodeOne ins
    rw [List.flatMap_cons, List.length_append, List.length_cons]
    omega

/-- There is room to count one more instruction behind any value that has less than 2⁶⁴ bytes. -/
theorem Holds.length_add_one_lt {bytes : Bytes} {list : List Instruction} (h : Holds bytes list)
    (hbytes : bytes.length < UInt64.size) : list.length + 1 < UInt64.size := by
  have hitems := length_flatMap_encodeOne list
  have hlength := h.leads.length_le
  unfold encode at hlength
  rw [List.length_append, Bytes.length_littleEndian] at hlength
  omega

end Instruction.Stored

end TraceGraph
