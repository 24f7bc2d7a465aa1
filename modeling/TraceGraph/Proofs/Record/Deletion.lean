import TraceGraph.Proofs.Record.Parts

/-!
# Records that lost a neighbour

A neighbour is deleted from the text of a record while the count in front of its list stays
as it is (`Record.encodeWithout`). Whether this is noticed is decided here exactly.

The list takes the token behind it as its last neighbour: the number of outgoing neighbours,
or the flag that tells the kinds apart. Both are numbers, so the list itself is read without
a complaint (`encodeWithout_incoming`, `encodeWithout_outgoing`), and everything behind it
is read one place early. The deletion is found only where this is impossible.

> `Resumed`: the kinds that can be read one place early, stated on the texts.

> `Shifts`: the records for which there is such a kind, stated on the records.

Both directions are needed. `resumed_of_spelled` and `exists_spelled_of_resumed` show that
reading the rest as a record is the same as resuming, and `Resumed.shifts` and
`Shifts.exists_resumed` that it depends on the record as `Shifts` says. For an internal
record that is a condition on its first outgoing neighbour; for an external one the
neighbours, the flag and the calls must be readable in place of one another.

The main result is `Node.scan?_encodeWithout`: the deletion is reported as malformed unless
the record shifts, and then a node is read. `scan?_encodeWithout_successorZero` is such a
record.
-/

namespace TraceGraph

open Grammar

namespace Record

/-- The two lists of neighbours of a record. -/
inductive Side where
  | incoming
  | outgoing
deriving DecidableEq

namespace Side

def neighbour : Side → Field
  | .incoming => .incomingNeighbour
  | .outgoing => .outgoingNeighbour

def members {β : Type} (r : Record β) : Side → IndexSet
  | .incoming => r.incoming
  | .outgoing => r.outgoing

end Side

/-- The text of a record without one of the neighbours and the delimiter behind it. The count of
the list is left as it is. -/
def encodeWithout (r : Record UInt32) (side : Side) (i : UInt32) : Bytes :=
  delimited (r.tokens.erase (side.neighbour, FieldFormat.u32.write i)) ++ terminator r.kind

/-! ## Lists that lost a neighbour -/

/-- Each neighbour has a token. -/
theorem mem_neighbourTokens (count neighbour : Field) {s : IndexSet} {i : UInt32} (hi : i ∈ s) :
    (neighbour, FieldFormat.u32.write i) ∈ neighbourTokens count neighbour s :=
  List.mem_cons_of_mem _ (List.mem_map_of_mem hi)

/-- With one member left out, a number behind the list makes up for it. -/
theorem delimited_neighbourTokens_erase (count neighbour : Field) (hne : count ≠ neighbour)
    (hcount : count.delimiter = comma) (hneighbour : neighbour.delimiter = comma) {s : IndexSet}
    {i : UInt32} (hi : i ∈ s.toList) (n : UInt32) :
    delimited ((neighbourTokens count neighbour s).erase (neighbour, FieldFormat.u32.write i)) ++
        (FieldFormat.u32.write n ++ [comma]) = listText (s.toList.erase i ++ [n]) := by
  have hinjective : Function.Injective fun i => (neighbour, FieldFormat.u32.write i) := by
    intro j k h
    have hread := congrArg FieldFormat.u32.read? (Prod.mk.inj h).2
    rw [FieldFormat.u32.read?_write, FieldFormat.u32.read?_write] at hread
    exact Option.some.inj hread
  have hlength : (s.toList.erase i ++ [n]).length = s.size := by
    rw [List.length_append, List.length_singleton, List.length_erase_add_one hi]
    rfl
  unfold neighbourTokens
  rw [List.erase_cons_tail (by simp [hne]), ← List.map_erase hinjective, delimited_cons, hcount,
    delimited_map_neighbour hneighbour]
  unfold listText listed
  rw [hlength, List.flatMap_append, List.flatMap_singleton, List.append_assoc _ _ (_ ++ [comma])]

/-- The list of incoming neighbours takes the number of outgoing ones for its last member. -/
theorem encodeWithout_incoming {r : Record UInt32} {i : UInt32} (hr : r.Countable)
    (hi : i ∈ r.incoming) :
    r.encodeWithout .incoming i =
      delimited r.leadingTokens ++
        (listText (r.incoming.toList.erase i ++ [.ofNat r.outgoing.size]) ++
          (listed r.outgoing.toList ++ kindText r.kind)) := by
  have hleading : (Field.incomingNeighbour, FieldFormat.u32.write i) ∉ r.leadingTokens := by
    simp [leadingTokens]
  have hmem := mem_neighbourTokens .incomingCount .incomingNeighbour hi
  have hcount : FieldFormat.u32.write (.ofNat r.outgoing.size) = Decimal.digits r.outgoing.size :=
    congrArg Decimal.digits (UInt32.toNat_ofNat_of_lt' hr.outgoing)
  show delimited (r.tokens.erase (.incomingNeighbour, _)) ++ _ = _
  rw [tokens_eq, List.erase_append_right _ hleading, List.erase_append_left _ hmem,
    ← delimited_neighbourTokens_erase .incomingCount .incomingNeighbour (by decide) rfl rfl hi,
    hcount]
  simp only [delimited_append, delimited_neighbourTokens .outgoingCount .outgoingNeighbour rfl rfl,
    listText, List.append_assoc, kindText]
  rfl

/-- The list of outgoing neighbours takes the flag behind it for its last member. -/
theorem encodeWithout_outgoing {r : Record UInt32} {i : UInt32} (hi : i ∈ r.outgoing)
    {flag : UInt32} {text : Bytes}
    (hkind : kindText r.kind = FieldFormat.u32.write flag ++ [comma] ++ text) :
    r.encodeWithout .outgoing i =
      delimited r.leadingTokens ++ (listText r.incoming.toList ++
        (listText (r.outgoing.toList.erase i ++ [flag]) ++ text)) := by
  have hleading : (Field.outgoingNeighbour, FieldFormat.u32.write i) ∉ r.leadingTokens := by
    simp [leadingTokens]
  have hincoming : (Field.outgoingNeighbour, FieldFormat.u32.write i) ∉
      neighbourTokens .incomingCount .incomingNeighbour r.incoming := by
    simp [neighbourTokens]
  have hmem := mem_neighbourTokens .outgoingCount .outgoingNeighbour hi
  have hrest : delimited (kindTokens r.kind) ++ terminator r.kind = _ := hkind
  show delimited (r.tokens.erase (.outgoingNeighbour, _)) ++ _ = _
  rw [tokens_eq, List.erase_append_right _ hleading, List.erase_append_right _ hincoming,
    List.erase_append_left _ hmem, delimited_append, delimited_append, delimited_append,
    ← delimited_neighbourTokens_erase .outgoingCount .outgoingNeighbour (by decide) rfl rfl hi,
    delimited_neighbourTokens .incomingCount .incomingNeighbour rfl rfl]
  simp only [List.append_assoc] at hrest ⊢
  rw [hrest]

/-! ## A list that takes one token too many -/

/-- A written list is read as itself. -/
theorem counted_listText {is : List UInt32} (h : is.length < UInt32.size) :
    Counted (Closed unsigned32 comma) (listText is) is :=
  counted_flatMap h fun i _ => closed_write_u32 .incomingNeighbour i

/-- The kinds that can be read when a list has taken the token behind it for a neighbour. -/
inductive Resumed (r : Record UInt32) : Side → Kind UInt32 → Prop
  | incoming {t₁ t₂ : Bytes} {outgoing : List UInt32} {kind : Kind UInt32}
      (heq : listed r.outgoing.toList ++ kindText r.kind = t₁ ++ t₂)
      (houtgoing : Counted (Closed unsigned32 comma) t₁ outgoing) (hkind : KindSpelled t₂ kind) :
      Resumed r .incoming kind
  | outgoing {flag : UInt32} {text : Bytes} {kind : Kind UInt32}
      (heq : kindText r.kind = FieldFormat.u32.write flag ++ [comma] ++ text)
      (hkind : KindSpelled text kind) : Resumed r .outgoing kind

/-- What distinguishes the kinds begins with a number, which can be taken for a neighbour.
-/
theorem exists_kindText_eq (kind : Kind UInt32) :
    ∃ flag text, kindText kind = FieldFormat.u32.write flag ++ [comma] ++ text := by
  cases kind with
  | internal mutation => exact ⟨0, _, kindText_internal mutation⟩
  | external calls => exact ⟨1, _, kindText_external calls⟩

/-- With one neighbour left out and one taken from behind, the count is right again. -/
theorem counted_listText_erase {is : List UInt32} {i : UInt32} (hi : i ∈ is)
    (h : is.length < UInt32.size) (n : UInt32) :
    Counted (Closed unsigned32 comma) (listText (is.erase i ++ [n])) (is.erase i ++ [n]) := by
  refine counted_listText ?_
  rw [List.length_append, List.length_singleton, List.length_erase_add_one hi]
  exact h

/-- What is left of the text is a record if its kind can be read one place early. -/
theorem exists_spelled_of_resumed {r : Record UInt32} (hr : r.Countable) {side : Side} {i : UInt32}
    (hi : i ∈ side.members r) {kind : Kind UInt32} (h : r.Resumed side kind) :
    ∃ r', Spelled (r.encodeWithout side i) r' := by
  cases h with
  | incoming heq houtgoing hkind =>
    rw [encodeWithout_incoming hr hi, heq]
    have hincoming := counted_listText_erase hi hr.incoming (.ofNat r.outgoing.size)
    exact ⟨_, spelled_leadingTokens_append_iff.2 (.mk hincoming houtgoing hkind)⟩
  | @outgoing flag text _ heq hkind =>
    rw [encodeWithout_outgoing hi heq]
    have houtgoing := counted_listText_erase hi hr.outgoing flag
    exact ⟨_, spelled_leadingTokens_append_iff.2
      (.mk (counted_listText hr.incoming) houtgoing hkind)⟩

/-- A record that is read from what is left of the text keeps the address, and its kind is read one
place early. -/
theorem resumed_of_spelled {r r' : Record UInt32} (hr : r.Countable) {side : Side} {i : UInt32}
    (hi : i ∈ side.members r) (h : Spelled (r.encodeWithout side i) r') :
    r'.address = r.address ∧ r.Resumed side r'.kind := by
  -- the list with the borrowed member is read as it stands, and what is behind it decides
  cases side with
  | incoming =>
    rw [encodeWithout_incoming hr hi, spelled_leadingTokens_append_iff] at h
    generalize htail : listText (r.incoming.toList.erase i ++ [.ofNat r.outgoing.size]) ++ _ = tail
      at h
    obtain ⟨hincoming, houtgoing, hkind⟩ := h
    obtain ⟨-, -, hrest⟩ := accepts_neighbours.split
      (counted_listText_erase hi hr.incoming _) hincoming htail
    exact ⟨rfl, .incoming hrest houtgoing hkind⟩
  | outgoing =>
    obtain ⟨flag, text, htext⟩ := exists_kindText_eq r.kind
    rw [encodeWithout_outgoing hi htext, spelled_leadingTokens_append_iff] at h
    generalize htail : listText r.incoming.toList ++ _ = tail at h
    obtain ⟨hincoming, houtgoing, hkind⟩ := h
    obtain ⟨-, -, hrest⟩ :=
      accepts_neighbours.split (counted_listText hr.incoming) hincoming htail
    obtain ⟨-, -, rfl⟩ := accepts_neighbours.split
      (counted_listText_erase hi hr.outgoing _) houtgoing hrest
    exact ⟨rfl, .outgoing htext hkind⟩

/-! ## When the kind can be read early -/

/-- The records in which a deletion goes unnoticed. An internal one must have its first outgoing
neighbour equal to the number of the others; an external one must allow its neighbours, its flag and
its calls, or its only call, to be read in place of one another. -/
inductive Shifts (r : Record UInt32) : Side → Prop
  | internal {mutation first : UInt32} {others : List UInt32} (hkind : r.kind = .internal mutation)
      (houtgoing : r.outgoing.toList = first :: others) (hfirst : first.toNat = others.length) :
      Shifts r .incoming
  | external {calls calls' : List Arguments} {outgoing : List UInt32} {t₁ t₂ : Bytes}
      (hkind : r.kind = .external calls)
      (heq : listed r.outgoing.toList ++ [49, comma] ++ callsText calls = t₁ ++ [49, comma] ++ t₂)
      (houtgoing : Counted (Closed unsigned32 comma) t₁ outgoing)
      (hcalls : Counted (Counted Argument) t₂ calls') : Shifts r .incoming
  | call {arguments : Arguments} {calls : List Arguments} (hkind : r.kind = .external [arguments])
      (hcalls : Counted (Counted Argument) (delimited (argumentTokens arguments)) calls) :
      Shifts r .outgoing

/-- A written kind is read as itself. -/
theorem spelled_kindText {r : Record UInt32} (h : r.Countable) :
    KindSpelled (kindText r.kind) r.kind :=
  spelled_kindTokens h.calls h.arguments

/-- Reading early does not turn one kind into the other, since both end at the same brace.
-/
theorem Resumed.isExternal_eq {r : Record UInt32} (hr : r.Countable) {side : Side}
    {kind : Kind UInt32} (h : r.Resumed side kind) : kind.isExternal = r.kind.isExternal := by
  cases h with
  | incoming heq houtgoing hkind => exact hkind.isExternal_eq (spelled_kindText hr) heq.symm
  | @outgoing flag text _ heq hkind =>
    have hfront : FieldFormat.u32.write flag ++ [comma] ++ text = [] ++ kindText r.kind := heq.symm
    exact hkind.isExternal_eq (spelled_kindText hr) hfront

theorem listed_cons (i : UInt32) (is : List UInt32) :
    listed (i :: is) = FieldFormat.u32.write i ++ [comma] ++ listed is := rfl

/-- Written neighbours are read in one way only. -/
theorem eq_of_repeated_listed {is js : List UInt32}
    (h : Repeated (Closed unsigned32 comma) (listed is) js) : is = js := by
  induction is generalizing js with
  | nil =>
    generalize htext : listed [] = text at h
    cases h with
    | nil => rfl
    | cons head tail =>
      obtain ⟨-⟩ := head
      simp [listed] at htext
  | cons i is ih =>
    generalize htext : listed (i :: is) = text at h
    cases h with
    | nil => simp [listed_cons] at htext
    | cons head tail =>
      obtain ⟨-, rfl, rfl⟩ := (Field.accepts_scan_u32 .incomingNeighbour).split
        (closed_write_u32 .incomingNeighbour i) head htext
      rw [ih tail]

/-- A list that stands alone is read as a list behind its own first member. -/
theorem counted_listed_iff {is js : List UInt32} :
    Counted (Closed unsigned32 comma) (listed is) js ↔
      ∃ first, is = first :: js ∧ first.toNat = js.length := by
  refine ⟨?_, ?_⟩
  · intro h
    generalize htext : listed is = text at h
    obtain ⟨hcount, hitems, hlength⟩ := h
    cases is with
    | nil =>
      obtain ⟨-⟩ := hcount
      simp [listed] at htext
    | cons first others =>
      obtain ⟨-, rfl, rfl⟩ := (Field.accepts_scan_u32 .incomingNeighbour).split
        (closed_write_u32 .incomingNeighbour first) hcount htext
      obtain rfl := eq_of_repeated_listed hitems
      exact ⟨first, rfl, hlength.symm⟩
  · intro h
    obtain ⟨first, rfl, hfirst⟩ := h
    exact .mk (closed_write_u32 .incomingNeighbour first)
      (repeated_flatMap js fun i _ => closed_write_u32 .incomingNeighbour i) hfirst.symm

/-- An internal record that lost a neighbour is read with the same mutation if it is read at all. -/
theorem Resumed.of_internal {r : Record UInt32} (hr : r.Countable) {side : Side}
    {kind : Kind UInt32} (h : r.Resumed side kind) {mutation : UInt32}
    (hmutation : r.kind = .internal mutation) : kind = .internal mutation ∧ r.Shifts side := by
  have hexternal : kind.isExternal = false := by
    rw [h.isExternal_eq hr, hmutation]
    rfl
  have hclosed := closed_write_u32 .mutation mutation
  have hlast : comma ∉ FieldFormat.u32.write mutation ++ [closer] :=
    hclosed.not_mem noNumeral_comma.unsigned32 (by decide)
  cases h with
  | @incoming t₁ _ outgoing _ heq houtgoing hkind =>
    rw [hmutation, kindText_internal] at heq
    cases hkind with
    | external => cases hexternal
    | @internal text mutation' hmutation' =>
      have hlast' : comma ∉ text := hmutation'.not_mem noNumeral_comma.unsigned32 (by decide)
      -- the texts are cut at their last comma, behind which both have a mutation
      have hcut : listed r.outgoing.toList ++ [48] ++
          comma :: (FieldFormat.u32.write mutation ++ [closer]) = t₁ ++ [48] ++ comma :: text := by
        rw [List.append_assoc, List.append_assoc]
        exact heq
      obtain ⟨hlisted, rfl⟩ := Bytes.eq_of_append_cons_last hlast hlast' hcut
      obtain rfl := List.append_cancel_right hlisted
      obtain ⟨first, hfirst, hlength⟩ := counted_listed_iff.1 houtgoing
      have hsame : FieldFormat.u32.write mutation ++ [closer] ++ [] =
        FieldFormat.u32.write mutation ++ [closer] ++ [] := rfl
      obtain ⟨-, rfl, -⟩ := (Field.accepts_scan_u32 .mutation).split hmutation' hclosed hsame
      exact ⟨rfl, .internal hmutation hfirst hlength⟩
  | outgoing heq hkind =>
    rw [hmutation, kindText_internal] at heq
    cases hkind with
    | external => cases hexternal
    | internal hmutation' =>
      -- what stands behind the flag has no comma, so it cannot be a flag with something behind it
      obtain ⟨-, -, htext⟩ := (Field.accepts_scan_u32 .outgoingNeighbour).split
        (closed_write_u32 .outgoingNeighbour 0) (closed_write_u32 .outgoingNeighbour _) heq
      rw [htext] at hlast
      exact absurd (List.mem_append_left _ (by decide)) hlast

/-- An external record that is read early allows what `Shifts` demands of it. -/
theorem Resumed.of_external {r : Record UInt32} (hr : r.Countable) {side : Side}
    {kind : Kind UInt32} (h : r.Resumed side kind) {calls : List Arguments}
    (hcalls : r.kind = .external calls) : r.Shifts side := by
  have hexternal : kind.isExternal = true := by
    rw [h.isExternal_eq hr, hcalls]
    rfl
  cases h with
  | @incoming t₁ _ outgoing _ heq houtgoing hkind =>
    rw [hcalls, kindText_external] at heq
    cases hkind with
    | internal => cases hexternal
    | external hcalls' =>
      refine .external hcalls ?_ houtgoing hcalls'
      rw [← List.append_assoc, ← List.append_assoc, ← List.append_assoc, ← List.append_assoc] at heq
      exact List.append_cancel_right heq
  | outgoing heq hkind =>
    rw [hcalls, kindText_external] at heq
    cases hkind with
    | internal => cases hexternal
    | @external text calls' hcalls' =>
      obtain ⟨-, -, htext⟩ := (Field.accepts_scan_u32 .outgoingNeighbour).split
        (closed_write_u32 .outgoingNeighbour 1) (closed_write_u32 .outgoingNeighbour _) heq
      have hflag : Decimal.digits calls.length ++ comma :: calls.flatMap
          (fun arguments => delimited (argumentTokens arguments)) = [49] ++ comma :: text := by
        have hcancel := List.append_cancel_right htext
        unfold callsText at hcancel
        rwa [List.append_assoc] at hcancel
      have hplain : comma ∉ Decimal.digits calls.length :=
        fun hmem => (FieldFormat.digits_plain _ _ hmem).1 rfl
      obtain ⟨hdigits, rfl⟩ := Bytes.eq_of_append_cons hplain (by decide) hflag
      -- the flag is read in place of the number of calls, so that number is written as a
      -- one
      have hlength : calls.length = 1 := by
        rw [← Decimal.value_digits calls.length, hdigits]
        rfl
      obtain ⟨arguments, rfl⟩ := List.length_eq_one_iff.1 hlength
      rw [List.flatMap_singleton] at hcalls'
      exact .call hcalls hcalls'

/-- Where a record shifts, there is a kind to be read early. -/
theorem Shifts.exists_resumed {r : Record UInt32} (hr : r.Countable) {side : Side}
    (h : r.Shifts side) : ∃ kind, r.Resumed side kind := by
  cases h with
  | internal hkind houtgoing hfirst =>
    exact ⟨r.kind, .incoming rfl (counted_listed_iff.2 ⟨_, houtgoing, hfirst⟩)
      (spelled_kindText hr)⟩
  | external hkind heq houtgoing hcalls =>
    refine ⟨_, .incoming ?_ houtgoing (.external hcalls)⟩
    rw [hkind, kindText_external]
    have hclosed := congrArg (· ++ [closer]) heq
    simp only [List.append_assoc] at hclosed ⊢
    exact hclosed
  | @call arguments calls hkind hcalls =>
    have htext : callsText [arguments] = [49, comma] ++ delimited (argumentTokens arguments) := by
      have hdigits : Decimal.digits 1 = [49] := by decide
      unfold callsText
      rw [List.flatMap_singleton, List.length_singleton, hdigits]
      rfl
    refine ⟨_, @Resumed.outgoing r 1 _ _ ?_ (.external hcalls)⟩
    rw [hkind, kindText_external, htext]
    rfl

/-- Where a kind can be read early, the record shifts. -/
theorem Resumed.shifts {r : Record UInt32} (hr : r.Countable) {side : Side} {kind : Kind UInt32}
    (h : r.Resumed side kind) : r.Shifts side := by
  cases hkind : r.kind with
  | internal mutation => exact (h.of_internal hr hkind).2
  | external calls => exact h.of_external hr hkind

/-! ## The text without the neighbour -/

/-- What is taken out of the text is the neighbour and its delimiter, and nothing else. -/
theorem exists_encode_eq {r : Record UInt32} {side : Side} {i : UInt32} (hi : i ∈ side.members r) :
    ∃ front back, r.encode = front ++ (FieldFormat.u32.write i ++ [comma]) ++ back ∧
      r.encodeWithout side i = front ++ back := by
  have hdelimiter : side.neighbour.delimiter = comma := by
    cases side
    all_goals rfl
  have hmem : (side.neighbour, FieldFormat.u32.write i) ∈ r.tokens := by
    rw [tokens_eq]
    refine List.mem_append_right _ ?_
    cases side with
    | incoming => exact List.mem_append_left _ (mem_neighbourTokens _ _ hi)
    | outgoing =>
      exact List.mem_append_right _ (List.mem_append_left _ (mem_neighbourTokens _ _ hi))
  obtain ⟨before, behind, -, htokens, herase⟩ := List.exists_erase_eq hmem
  refine ⟨delimited before, delimited behind ++ terminator r.kind, ?_, ?_⟩
  · unfold encode
    rw [htokens, delimited_append, delimited_cons, hdelimiter]
    simp only [List.append_assoc]
  · unfold encodeWithout
    rw [herase, delimited_append, List.append_assoc]

/-- The brace behind the index is in every record. -/
theorem opener_mem_encode (r : Record UInt32) : opener ∈ r.encode :=
  List.mem_append_left _ (List.mem_flatMap.2 ⟨(.index, FieldFormat.u32.write r.index),
    List.mem_cons_self .., List.mem_append_right _ (List.mem_singleton.2 rfl)⟩)

/-- The text without the neighbour still ends in its only brace. -/
theorem exists_encodeWithout_eq {r : Record UInt32} (hr : r.Countable) {side : Side} {i : UInt32}
    (hi : i ∈ side.members r) :
    ∃ init, r.encodeWithout side i = init ++ [closer] ∧ init ≠ [] ∧ closer ∉ init := by
  obtain ⟨front, back, hencode, hwithout⟩ := exists_encode_eq hi
  obtain ⟨text, htext, hmem⟩ := (spelled_encode hr).exists_append
  have hopener : opener ∈ r.encodeWithout side i := by
    have hfull := r.opener_mem_encode
    have hplain : opener ∉ FieldFormat.u32.write i :=
      fun h => (FieldFormat.u32.plain i opener h).2.1 rfl
    rw [hencode] at hfull
    rw [hwithout]
    simp only [List.mem_append, List.mem_singleton, hplain, false_or] at hfull ⊢
    rcases hfull with (hfront | hcomma) | hback
    · exact .inl hfront
    · exact absurd hcomma (by decide)
    · exact .inr hback
  rcases List.eq_nil_or_concat back with rfl | ⟨init, b, rfl⟩
  · -- the neighbour is not the last of the text, since that ends in a brace
    rw [hencode, List.append_nil, ← List.append_assoc] at htext
    exact absurd (List.append_inj_right' htext rfl) (by decide)
  · rw [List.concat_eq_append] at hencode hwithout
    rw [hencode, ← List.append_assoc] at htext
    obtain ⟨rfl, hb⟩ := List.append_inj' htext rfl
    obtain rfl : b = closer := List.singleton_inj.1 hb
    refine ⟨front ++ init, ?_, ?_, ?_⟩
    · rw [hwithout, List.append_assoc]
    · intro hnil
      rw [hwithout, ← List.append_assoc, hnil] at hopener
      exact absurd hopener (by decide)
    · simp only [List.mem_append, not_or] at hmem ⊢
      exact ⟨hmem.1.1, hmem.2⟩

end Record

namespace Node

open Record

/-- What is read under the address and the mutation of a well-formed node can be bound. -/
theorem WellFormed.exists_binds {lookup : Lookup} {node : Node} (h : node.WellFormed lookup)
    {r : Record UInt32} (haddress : r.address = node.address)
    (hkind : ∀ block, node.kind = .internal block → r.kind = .internal block.mutation)
    (hexternal : r.kind.isExternal = node.kind.isExternal) : ∃ bound, r.Binds lookup bound := by
  cases hr : r.kind with
  | external calls => exact ⟨_, .external hr⟩
  | internal mutation =>
    cases hnode : node.kind with
    | external calls =>
      rw [hr, hnode] at hexternal
      cases hexternal
    | internal block =>
      have hmutation := hkind block hnode
      have hresolves := h.resolves block hnode
      have haddressed := h.addressed block hnode
      rw [← haddress] at hresolves haddressed
      exact ⟨_, .internal hmutation hresolves haddressed⟩

section

variable {lookup : Lookup} {node : Node} {side : Side} {i : UInt32}

theorem mem_members_unbound (hi : i ∈ side.members node.toRecord) :
    i ∈ side.members node.toRecord.unbound := by
  cases side
  all_goals exact hi

/-- Where the text can be read one place early, it is read as a node. -/
theorem exists_other_of_shifts (h : node.WellFormed lookup) (hi : i ∈ side.members node.toRecord)
    (hshifts : node.toRecord.unbound.Shifts side) (rest : Bytes) (offset : Nat) :
    ∃ other, (scan? lookup ⟨node.toRecord.unbound.encodeWithout side i ++ rest, .complete,
      offset⟩).1 = .ok (some other) := by
  have hr := h.countable.unbound
  have hi := mem_members_unbound hi
  obtain ⟨_, hresumed⟩ := hshifts.exists_resumed hr
  obtain ⟨r, hspelled⟩ := exists_spelled_of_resumed hr hi hresumed
  obtain ⟨haddress, hresumed⟩ := resumed_of_spelled hr hi hspelled
  have hkind : ∀ block, node.kind = .internal block → r.kind = .internal block.mutation := by
    intro block hblock
    exact (hresumed.of_internal hr (congrArg (Kind.map Block.mutation) hblock)).1
  have hexternal : r.kind.isExternal = node.kind.isExternal := by
    rw [hresumed.isExternal_eq hr]
    show (node.kind.map Block.mutation).isExternal = _
    cases node.kind
    all_goals rfl
  obtain ⟨bound, hbinds⟩ := h.exists_binds haddress hkind hexternal
  have hscan := Record.scan?_eq_some_iff.2
    ⟨_, hspelled, ByteStream.past_mk _ rest .complete offset⟩
  exact ⟨⟨bound, .fresh bound.kind⟩,
    congrArg Prod.fst (scan?_eq_some_iff_record.2 ⟨r, hscan, hbinds, rfl⟩)⟩

/-- Where it cannot, it is malformed. -/
theorem exists_malformed_of_not_shifts (h : node.WellFormed lookup)
    (hi : i ∈ side.members node.toRecord) (hshifts : ¬node.toRecord.unbound.Shifts side)
    (rest : Bytes) (offset : Nat) :
    ∃ field token, (scan? lookup ⟨node.toRecord.unbound.encodeWithout side i ++ rest, .complete,
      offset⟩).1 = .error (.malformed field token) := by
  have hr := h.countable.unbound
  have hi := mem_members_unbound hi
  obtain ⟨init, htext, hne, hmem⟩ := exists_encodeWithout_eq hr hi
  have hnone : ∀ r, ¬Spelled (init ++ [closer]) r := by
    intro r hspelled
    rw [← htext] at hspelled
    exact hshifts ((resumed_of_spelled hr hi hspelled).2.shifts hr)
  obtain ⟨field, token, s', hscan⟩ := exists_malformed_of_not_spelled hne hmem hnone rest offset
  rw [← htext] at hscan
  exact ⟨field, token, congrArg Prod.fst (scan?_of_record_error hscan)⟩

/-- A record that lost a neighbour is malformed unless what stands behind the list can be read one
place early, and then a node is read from it. -/
theorem scan?_encodeWithout (h : node.WellFormed lookup) (hi : i ∈ side.members node.toRecord)
    (rest : Bytes) (offset : Nat) :
    let text := node.toRecord.unbound.encodeWithout side i
    let answer := (scan? lookup ⟨text ++ rest, .complete, offset⟩).1
    ((∃ field token, answer = .error (.malformed field token)) ↔
      ¬node.toRecord.unbound.Shifts side) ∧
    ((∃ other, answer = .ok (some other)) ↔ node.toRecord.unbound.Shifts side) := by
  intro text answer
  refine ⟨⟨?_, fun hshifts => exists_malformed_of_not_shifts h hi hshifts rest offset⟩,
    ⟨?_, fun hshifts => exists_other_of_shifts h hi hshifts rest offset⟩⟩
  · intro hmalformed hshifts
    obtain ⟨field, token, hmalformed⟩ := hmalformed
    obtain ⟨other, hother⟩ := exists_other_of_shifts h hi hshifts rest offset
    cases hmalformed.symm.trans hother
  · intro hother
    by_contra hshifts
    obtain ⟨other, hother⟩ := hother
    obtain ⟨field, token, hmalformed⟩ := exists_malformed_of_not_shifts h hi hshifts rest offset
    cases hmalformed.symm.trans hother

end

/-- A node of the first instruction that is recorded can be found again. -/
theorem WellFormed.of_recorded {instruction : Instruction} (hmutation : instruction.mutation = 0)
    {node : Node} (hcountable : node.toRecord.Countable)
    (hkind : node.kind = .internal (.ofInstruction instruction))
    (haddress : instruction.address = node.address) :
    node.WellFormed (MemoryStore.empty.record instruction).2.lookup := by
  have hrecorded : (MemoryStore.empty.record instruction).2.recordedAt node.address =
      [instruction] := by
    have hplaced : (MemoryStore.empty.record instruction).1 = instruction := by
      show { instruction with mutation := 0 } = instruction
      rw [← hmutation]
    show ((FiniteMap.empty.set instruction.address
      [(MemoryStore.empty.record instruction).1]).get? node.address).getD [] = _
    rw [FiniteMap.get?_set, haddress, if_pos rfl, hplaced]
    rfl
  refine ⟨hcountable, ?_, ?_⟩
  · intro block hblock
    rw [hkind] at hblock
    cases hblock
    show Except.ok ((MemoryStore.empty.record instruction).2.recordedAt node.address)[
      instruction.mutation.toNat]? = _
    rw [hrecorded, hmutation]
    rfl
  · intro block hblock
    rw [hkind] at hblock
    cases hblock
    exact haddress

/-- The block whose only successor is the node 9 does not lose its predecessor unnoticed. -/
theorem scan?_encodeWithout_successorNine :
    let instruction := Instruction.decoded 4096 "cmp" "eax, 0" 3
    let lookup := (MemoryStore.empty.record instruction).2.lookup
    let node : Node := { internal 5 ⟨10, 20, 0⟩ (.ofInstruction instruction) with
      incoming := .ofList [2], outgoing := .ofList [9] }
    node.WellFormed lookup ∧ 2 ∈ Side.incoming.members node.toRecord ∧
    ∃ field token,
      (scan? lookup ⟨node.toRecord.unbound.encodeWithout .incoming 2 ++ endMarker, .complete, 0⟩).1 =
        .error (.malformed field token) := by
  intro instruction lookup node
  have hwell : node.WellFormed lookup := .of_recorded rfl (by decide) rfl rfl
  have hmem : 2 ∈ Side.incoming.members node.toRecord := by decide
  have hshifts : ¬node.toRecord.unbound.Shifts .incoming := by
    intro h
    cases h with
    | internal hkind houtgoing hfirst =>
      cases houtgoing
      cases hfirst
    | external hkind => cases hkind
  exact ⟨hwell, hmem, (scan?_encodeWithout hwell hmem endMarker 0).1.2 hshifts⟩

/-- The block whose only successor is the node 0 does: what is left is the text of a node with the
predecessor 1, which was the number of its successors, and without a successor. -/
theorem scan?_encodeWithout_successorZero :
    let instruction := Instruction.decoded 4096 "cmp" "eax, 0" 3
    let lookup := (MemoryStore.empty.record instruction).2.lookup
    let node : Node := { internal 5 ⟨10, 20, 0⟩ (.ofInstruction instruction) with
      incoming := .ofList [2], outgoing := .ofList [0] }
    let other : Node := { node with incoming := .ofList [1], outgoing := .empty }
    node.WellFormed lookup ∧ 2 ∈ Side.incoming.members node.toRecord ∧
    (scan? lookup ⟨node.toRecord.unbound.encodeWithout .incoming 2 ++ endMarker, .complete, 0⟩).1 =
      .ok (some other) ∧
    ¬Same node other := by
  intro instruction lookup node other
  have hwell : node.WellFormed lookup := .of_recorded rfl (by decide) rfl rfl
  have hwell' : other.WellFormed lookup := .of_recorded rfl (by decide) rfl rfl
  have htext : node.toRecord.unbound.encodeWithout .incoming 2 = other.encode := by decide
  refine ⟨hwell, by decide, ?_, by decide⟩
  rw [htext, scan?_encode_append hwell']
  rfl

end Node

end TraceGraph
