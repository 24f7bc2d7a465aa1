import TraceGraph.Proofs.Disassembly.Answers
import TraceGraph.Proofs.Disassembly.StoredValue

/-!
# What a disk store does to its values

The values of a disk store can be any bytes at all. This module describes what every call
does in every such state, so that nothing has to be assumed about how the state came about.

At each address there is either a list to be read or a damaged value, and never both
(`DiskStore.damaged_or_reads`, `Damaged.not_reads`). Which of them it is decides what the
calls do:

* calls that have to read a damaged value fail and leave it as it is (`Damaged.resolve`,
  `Damaged.mutationCount`, `Damaged.record`),
* lookups of a list read it, and a record appends to it and changes no value but that of its
  address (`Reads.resolve`, `Reads.mutationCount`, `Reads.record`, `Reads.append`).

What a sequence of calls does to the values is `Kept`: values that nothing was recorded for
stay the same, byte for byte, so do damaged values, and behind each list stands what was
recorded there. The relation composes (`Kept.trans`), so from one call (`kept_answer`) there
follow all sequences of calls by induction (`exists_kept_run`).

A record on a list can only be read back if there is room to count it. For a value that fits
into memory there always is, since no instruction takes less than 30 bytes
(`Reads.length_add_one_lt`).

The laws are collected in `Preserving`, and `DiskStore.preserving` states them for every
store.
-/

namespace TraceGraph

open Instruction.Stored (Fits Holds)

/-- The address whose value is read to answer a call. -/
def StoreCall.address? : StoreCall → Option UInt64
  | .record ins => some ins.address
  | .resolve address _ => some address
  | .mutationCount address => some address
  | .addressCount => none

/-- Why a call failed. -/
def StoreAnswer.failure? : StoreAnswer → Option StoreFailure
  | .recorded (.error failure) => some failure
  | .resolved (.error failure) => some failure
  | .counted (.error failure) => some failure
  | _ => none

namespace DiskStore

/-- The list at an address, which is empty where there is no value. -/
inductive Reads (store : DiskStore) (address : UInt64) : List Instruction → Prop
  | missing (h : store.values.get? address = none) : Reads store address []
  | stored {value : Bytes} {list : List Instruction} (h : store.values.get? address = some value)
      (hholds : Holds value list) : Reads store address list

/-- There is a value at the address, and it holds no list. -/
def Damaged (store : DiskStore) (address : UInt64) : Prop :=
  ∃ value, store.values.get? address = some value ∧ ∀ list, ¬Holds value list

variable {store store' store'' : DiskStore} {address : UInt64} {list : List Instruction}

/-- There is nothing else that a value can be. -/
theorem damaged_or_reads (store : DiskStore) (address : UInt64) :
    store.Damaged address ∨ ∃ list, store.Reads address list := by
  cases hvalue : store.values.get? address with
  | none => exact .inr ⟨[], .missing hvalue⟩
  | some value =>
    by_cases hholds : ∃ list, Holds value list
    · obtain ⟨list, hholds⟩ := hholds
      exact .inr ⟨list, .stored hvalue hholds⟩
    · exact .inl ⟨value, hvalue, not_exists.1 hholds⟩

/-- In a damaged value no list is read. -/
theorem Damaged.not_reads (h : store.Damaged address) : ¬store.Reads address list := by
  intro hreads
  obtain ⟨value, hvalue, hnone⟩ := h
  cases hreads with
  | missing hmissing => cases hvalue.symm.trans hmissing
  | stored hstored hholds =>
    cases hvalue.symm.trans hstored
    exact hnone list hholds

theorem Damaged.load_eq (h : store.Damaged address) :
    store.load address = .error (.undecodable address) := by
  obtain ⟨value, hvalue, hnone⟩ := h
  rw [DiskStore.load_eq, hvalue]
  dsimp only
  rw [Instruction.Stored.decode?_eq_none_iff.2 hnone]

/-- A list is loaded; a missing value and an empty list cannot be told apart. -/
theorem Reads.exists_load (h : store.Reads address list) :
    ∃ known, store.load address = .ok known ∧ known.getD [] = list := by
  rw [DiskStore.load_eq]
  cases h with
  | missing hmissing =>
    rw [hmissing]
    exact ⟨none, rfl, rfl⟩
  | stored hstored hholds =>
    rw [hstored]
    dsimp only
    rw [Instruction.Stored.decode?_eq_some_iff_holds.2 hholds]
    exact ⟨some list, rfl, rfl⟩

/-- There is one list at an address. -/
theorem Reads.eq {list' : List Instruction} (h : store.Reads address list)
    (h' : store.Reads address list') : list = list' := by
  obtain ⟨known, hload, rfl⟩ := h.exists_load
  obtain ⟨known', hload', rfl⟩ := h'.exists_load
  cases hload.symm.trans hload'
  rfl

/-- What is read at an address depends on its value alone. -/
theorem Reads.of_get?_eq (h : store.Reads address list)
    (heq : store'.values.get? address = store.values.get? address) :
    store'.Reads address list := by
  cases h with
  | missing hmissing => exact .missing (heq.trans hmissing)
  | stored hstored hholds => exact .stored (heq.trans hstored) hholds

/-- Whether a value is damaged depends on it alone. -/
theorem Damaged.of_get?_eq (h : store.Damaged address)
    (heq : store'.values.get? address = store.values.get? address) : store'.Damaged address := by
  obtain ⟨value, hvalue, hnone⟩ := h
  exact ⟨value, heq.trans hvalue, hnone⟩

/-! ## Lookups -/

/-- An instruction is not looked up in a damaged value. -/
theorem Damaged.resolve (h : store.Damaged address) (mutation : UInt32) :
    store.lookup.resolve address mutation = .error (.undecodable address) := by
  show (store.load address).map _ = _
  rw [h.load_eq]
  rfl

/-- An instruction is looked up at the place of the mutation. -/
theorem Reads.resolve (h : store.Reads address list) (mutation : UInt32) :
    store.lookup.resolve address mutation = .ok list[mutation.toNat]? := by
  obtain ⟨known, hload, rfl⟩ := h.exists_load
  show (store.load address).map _ = _
  rw [hload]
  rfl

/-- A damaged value is not counted. -/
theorem Damaged.mutationCount (h : store.Damaged address) :
    store.lookup.mutationCount address = .error (.undecodable address) := by
  show (store.load address).map _ = _
  rw [h.load_eq]
  rfl

/-- The mutations at an address are as many as there are entries in the list. -/
theorem Reads.mutationCount (h : store.Reads address list) :
    store.lookup.mutationCount address = .ok list.length := by
  obtain ⟨known, hload, rfl⟩ := h.exists_load
  show (store.load address).map _ = _
  rw [hload]
  rfl

theorem Damaged.bind? (h : store.Damaged address) (mutation : UInt32) :
    Block.bind? store.lookup address mutation = .error (.undecodable address) := by
  unfold Block.bind?
  rw [h.resolve]

/-- A block is bound to the entry at the place of the mutation, whichever mutation the entry claims,
provided that it claims the address. -/
theorem Reads.bind? (h : store.Reads address list) (mutation : UInt32) :
    Block.bind? store.lookup address mutation =
      .ok ((list[mutation.toNat]?.filter fun ins => ins.address = address).map
        fun ins => ⟨mutation, ins⟩) := by
  unfold Block.bind?
  rw [h.resolve]
  cases list[mutation.toNat]? with
  | none => rfl
  | some ins =>
    by_cases haddress : ins.address = address
    · simp only [if_pos haddress, Option.filter_some, decide_eq_true haddress, if_true,
        Option.map_some]
    · simp only [if_neg haddress, Option.filter_some, decide_eq_false haddress,
        Bool.false_eq_true, if_false, Option.map_none]

/-! ## Records -/

/-- A record at a damaged value fails. -/
theorem Damaged.record {ins : Instruction} (h : store.Damaged ins.address) :
    store.record ins = .error (.undecodable ins.address) := by
  unfold DiskStore.record
  rw [h.load_eq]

/-- A record at a list appends to it. -/
theorem Reads.record {ins : Instruction} (h : store.Reads ins.address list) :
    store.record ins = .ok (store.append ins (some list)) := by
  obtain ⟨known, hload, rfl⟩ := h.exists_load
  rw [record_eq, hload]
  rfl

/-- A record that fails leaves the store as it was. -/
theorem Damaged.answer_record {ins : Instruction} (h : store.Damaged ins.address) :
    (Store.disk store).answer (.record ins) =
      (.recorded (.error (.undecodable ins.address)), .disk store) := by
  have hrecord : (Store.disk store).record ins = .error (.undecodable ins.address) := by
    show (store.record ins).map _ = _
    rw [h.record]
    rfl
  unfold Store.answer
  dsimp only
  rw [hrecord]

/-- A record that does not fail hands out what it appended. -/
theorem Reads.answer_record {ins : Instruction} (h : store.Reads ins.address list) :
    (Store.disk store).answer (.record ins) =
      (.recorded (.ok (store.append ins (some list)).1),
        .disk (store.append ins (some list)).2) := by
  have hrecord : (Store.disk store).record ins =
      .ok ((store.append ins (some list)).1, .disk (store.append ins (some list)).2) := by
    show (store.record ins).map _ = _
    rw [h.record]
    rfl
  unfold Store.answer
  dsimp only
  rw [hrecord]

theorem get?_append_of_ne {ins : Instruction} (hne : address ≠ ins.address) :
    (store.append ins (some list)).2.values.get? address = store.values.get? address := by
  unfold append
  dsimp only
  rw [FiniteMap.get?_set, if_neg hne]

/-- A record writes the whole list anew. -/
theorem get?_append_self (store : DiskStore) (ins : Instruction) (list : List Instruction) :
    (store.append ins (some list)).2.values.get? ins.address =
      some (Instruction.Stored.encode (list ++ [(store.append ins (some list)).1])) := by
  unfold append
  dsimp only
  rw [FiniteMap.get?_set, if_pos rfl]
  rfl

theorem Reads.fits (h : store.Reads address list) : ∀ ins ∈ list, Fits ins := by
  cases h with
  | missing => nofun
  | stored _ hholds => exact hholds.fits

/-- Where one more instruction fits, the list with it is read back. -/
theorem Reads.append {ins : Instruction} (h : store.Reads ins.address list)
    (hlength : list.length + 1 < UInt64.size) (hfits : Fits ins) :
    (store.append ins (some list)).2.Reads ins.address
      (list ++ [(store.append ins (some list)).1]) := by
  refine .stored (store.get?_append_self ins list) (Instruction.Stored.holds_encode ?_ ?_)
  · rw [List.length_append]
    exact hlength
  · intro other hother
    rcases List.mem_append.1 hother with hother | hother
    · exact h.fits other hother
    · rw [List.mem_singleton.1 hother]
      exact hfits

/-- A list that is read leaves room for one more instruction if its value fits into memory. -/
theorem Reads.length_add_one_lt (h : store.Reads address list)
    (hvalue : ∀ value, store.values.get? address = some value → value.length < UInt64.size) :
    list.length + 1 < UInt64.size := by
  cases h with
  | missing => decide
  | stored hstored hholds => exact hholds.length_add_one_lt (hvalue _ hstored)

/-! ## Any calls -/

/-- What calls leave of the values: those that no record is made for and those that are damaged
stay what they are, and behind each list stands what was recorded at its address, in order and with
its place as its mutation. -/
structure Kept (store : DiskStore) (calls : List StoreCall) (store' : DiskStore) : Prop where
  unrecorded : ∀ address, recordsAt address calls = [] →
    store'.values.get? address = store.values.get? address
  damaged : ∀ address, store.Damaged address →
    store'.values.get? address = store.values.get? address
  reads : ∀ address list, store.Reads address list →
    list.length + (recordsAt address calls).length < UInt64.size →
    (∀ ins ∈ recordsAt address calls, Fits ins) →
    store'.Reads address (list ++ (recordsAt address calls).mapIdx
      fun i ins => { ins with mutation := .ofNat (list.length + i) })

/-- Calls may leave a store as it is if they record nothing where a list could be read. -/
theorem kept_self {calls : List StoreCall}
    (h : ∀ address list, store.Reads address list → recordsAt address calls = []) :
    store.Kept calls store := by
  refine ⟨fun _ _ => rfl, fun _ _ => rfl, ?_⟩
  intro address list hreads _ _
  rw [h address list hreads, List.mapIdx_nil, List.append_nil]
  exact hreads

/-- What calls keep and what further calls keep, all of them keep. -/
theorem Kept.trans {calls more : List StoreCall} (h : store.Kept calls store')
    (h' : store'.Kept more store'') : store.Kept (calls ++ more) store'' := by
  refine ⟨?_, ?_, ?_⟩
  · intro address hnone
    rw [recordsAt_append, List.append_eq_nil_iff] at hnone
    exact (h'.unrecorded address hnone.2).trans (h.unrecorded address hnone.1)
  · intro address hdamaged
    have heq := h.damaged address hdamaged
    exact (h'.damaged address (hdamaged.of_get?_eq heq)).trans heq
  · intro address list hreads hlength hfits
    rw [recordsAt_append, List.length_append] at hlength
    rw [recordsAt_append, List.forall_mem_append] at hfits
    -- the later calls find the list as the earlier ones left it, so their places count on from it
    have hfirst := h.reads address list hreads (by omega) hfits.1
    have hsecond := h'.reads address _ hfirst
      (by rw [List.length_append, List.length_mapIdx]; omega) hfits.2
    rw [recordsAt_append, List.mapIdx_append, ← List.append_assoc]
    simp only [List.length_append, List.length_mapIdx, Nat.add_assoc] at hsecond
    simp only [Nat.add_comm _ (recordsAt address calls).length]
    exact hsecond

theorem recordsAt_record_self (ins : Instruction) :
    recordsAt ins.address [.record ins] = [ins] :=
  List.filter_cons_of_pos (decide_eq_true rfl)

theorem recordsAt_record_of_ne {ins : Instruction} (hne : address ≠ ins.address) :
    recordsAt address [.record ins] = [] :=
  List.filter_cons_of_neg (by rw [decide_eq_true_iff]; exact hne.symm)

theorem kept_record {ins : Instruction} (h : store.Reads ins.address list) :
    store.Kept [.record ins] (store.append ins (some list)).2 := by
  refine ⟨?_, ?_, ?_⟩
  · intro address hnone
    refine get?_append_of_ne ?_
    intro heq
    rw [heq] at hnone
    cases (recordsAt_record_self ins).symm.trans hnone
  · intro address hdamaged
    refine get?_append_of_ne ?_
    intro heq
    rw [heq] at hdamaged
    exact hdamaged.not_reads h
  · -- the list grows at the address of the record and at no other
    intro address list' hreads hlength hfits
    by_cases hne : address = ins.address
    · subst hne
      obtain rfl := h.eq hreads
      rw [recordsAt_record_self] at hlength hfits ⊢
      exact hreads.append hlength (hfits ins (List.mem_singleton.2 rfl))
    · rw [recordsAt_record_of_ne hne, List.mapIdx_nil, List.append_nil]
      exact hreads.of_get?_eq (get?_append_of_ne hne)

/-- One call, in any state of the store. -/
theorem kept_answer (store : DiskStore) (call : StoreCall) :
    ∃ store', ((Store.disk store).answer call).2 = .disk store' ∧ store.Kept [call] store' := by
  cases call with
  | record ins =>
    rcases store.damaged_or_reads ins.address with hdamaged | ⟨list, hreads⟩
    · -- no list can be read at the address of a record that fails
      refine ⟨store, congrArg Prod.snd hdamaged.answer_record, kept_self ?_⟩
      intro address list hreads
      refine recordsAt_record_of_ne ?_
      intro heq
      exact hdamaged.not_reads (heq ▸ hreads)
    · exact ⟨_, congrArg Prod.snd hreads.answer_record, kept_record hreads⟩
  | resolve address mutation => exact ⟨store, rfl, kept_self fun _ _ _ => rfl⟩
  | mutationCount address => exact ⟨store, rfl, kept_self fun _ _ _ => rfl⟩
  | addressCount => exact ⟨store, rfl, kept_self fun _ _ _ => rfl⟩

/-- Any calls, in any state of the store. -/
theorem exists_kept_run (store : DiskStore) (calls : List StoreCall) :
    ∃ store', (Store.run calls (.disk store)).2 = .disk store' ∧ store.Kept calls store' := by
  induction calls generalizing store with
  | nil => exact ⟨store, rfl, kept_self fun _ _ _ => rfl⟩
  | cons call calls ih =>
    obtain ⟨store', hanswer, hkept⟩ := store.kept_answer call
    obtain ⟨store'', hrun, hkept'⟩ := ih store'
    refine ⟨store'', ?_, hkept.trans hkept'⟩
    rw [Store.run, hanswer]
    exact hrun

/-! ## Every state -/

/-- What is promised of a store whatever its values are. -/
structure Preserving (store : DiskStore) : Prop where
  /-- A call fails if and only if it has to read a damaged value. -/
  fails : ∀ call failure, ((Store.disk store).answer call).1.failure? = some failure ↔
    ∃ address, call.address? = some address ∧ store.Damaged address ∧
      failure = .undecodable address
  /-- Calls that fail, and all calls but records, change nothing. -/
  unchanged : ∀ call, (∀ ins, call = .record ins → store.Damaged ins.address) →
    ((Store.disk store).answer call).2 = .disk store
  /-- A record that does not fail hands the instruction out with the length of the list as its
  mutation and changes the value of its address only. With a value that fits into memory and texts
  that do, the new value holds the old list and the instruction behind it. -/
  record : ∀ ins list, store.Reads ins.address list →
    let kept := { ins with mutation := .ofNat list.length }
    ∃ store', (Store.disk store).answer (.record ins) = (.recorded (.ok kept), .disk store') ∧
      (∀ address, address ≠ ins.address →
        store'.values.get? address = store.values.get? address) ∧
      (list.length < UInt32.size → kept.mutation.toNat = list.length) ∧
      ((∀ value, store.values.get? ins.address = some value → value.length < UInt64.size) →
        Fits ins → store'.Reads ins.address (list ++ [kept]))
  resolve : ∀ address mutation list, store.Reads address list →
    ((Store.disk store).answer (.resolve address mutation)).1 =
      .resolved (.ok list[mutation.toNat]?)
  mutationCount : ∀ address list, store.Reads address list →
    ((Store.disk store).answer (.mutationCount address)).1 = .counted (.ok list.length)
  bind_fails : ∀ address mutation failure,
    Block.bind? store.lookup address mutation = .error failure ↔
      store.Damaged address ∧ failure = .undecodable address
  /-- A block is bound to the entry at the place of its mutation if that claims the address. -/
  bind : ∀ address mutation list, store.Reads address list →
    Block.bind? store.lookup address mutation =
      .ok ((list[mutation.toNat]?.filter fun ins => ins.address = address).map
        fun ins => ⟨mutation, ins⟩)
  /-- Any number of calls leave damaged values as they are and append to lists. -/
  run : ∀ calls, ∃ store', (Store.run calls (.disk store)).2 = .disk store' ∧
    store.Kept calls store'

/-- What fails on damaged values and never on lists. -/
theorem failed_iff {failed : Option StoreFailure} (failure : StoreFailure)
    (hdamaged : store.Damaged address → failed = some (.undecodable address))
    (hreads : ∀ list, store.Reads address list → failed = none) :
    failed = some failure ↔ store.Damaged address ∧ failure = .undecodable address := by
  rcases store.damaged_or_reads address with h | ⟨list, h⟩
  · rw [hdamaged h, Option.some_inj, eq_comm]
    exact (and_iff_right h).symm
  · rw [hreads list h]
    exact iff_of_false nofun fun hfailed => hfailed.1.not_reads h

/-- A call fails if and only if it has to read a damaged value. -/
theorem failure?_answer_iff (store : DiskStore) (call : StoreCall) (failure : StoreFailure) :
    ((Store.disk store).answer call).1.failure? = some failure ↔
      ∃ address, call.address? = some address ∧ store.Damaged address ∧
        failure = .undecodable address := by
  cases call with
  | addressCount => exact iff_of_false nofun nofun
  | record ins =>
    simp only [StoreCall.address?, Option.some.injEq, exists_eq_left']
    refine failed_iff failure ?_ ?_
    · intro h
      rw [h.answer_record]
      rfl
    · intro list h
      rw [h.answer_record]
      rfl
  | resolve address mutation =>
    simp only [StoreCall.address?, Option.some.injEq, exists_eq_left', Store.answer, Store.lookup]
    refine failed_iff failure ?_ ?_
    · intro h
      rw [h.resolve]
      rfl
    · intro list h
      rw [h.resolve]
      rfl
  | mutationCount address =>
    simp only [StoreCall.address?, Option.some.injEq, exists_eq_left', Store.answer, Store.lookup]
    refine failed_iff failure ?_ ?_
    · intro h
      rw [h.mutationCount]
      rfl
    · intro list h
      rw [h.mutationCount]
      rfl

/-- Binding a block fails if and only if the value is damaged. -/
theorem bind?_error_iff (store : DiskStore) (address : UInt64) (mutation : UInt32)
    (failure : StoreFailure) : Block.bind? store.lookup address mutation = .error failure ↔
      store.Damaged address ∧ failure = .undecodable address := by
  rcases store.damaged_or_reads address with h | ⟨list, h⟩
  · rw [h.bind?, Except.error.injEq, eq_comm]
    exact (and_iff_right h).symm
  · rw [h.bind?]
    exact iff_of_false nofun fun hfailed => hfailed.1.not_reads h

/-- No state of a store is so broken that a call damages it further: what cannot be read is reported
and left alone, and what can be read is only ever appended to. -/
theorem preserving (store : DiskStore) : store.Preserving where
  fails := store.failure?_answer_iff
  unchanged call h := by
    cases call with
    | record ins => exact congrArg Prod.snd (h ins rfl).answer_record
    | resolve => rfl
    | mutationCount => rfl
    | addressCount => rfl
  record ins list h := by
    refine ⟨_, h.answer_record, fun _ hne => get?_append_of_ne hne, UInt32.toNat_ofNat_of_lt', ?_⟩
    intro hvalue hfits
    exact h.append (h.length_add_one_lt hvalue) hfits
  resolve address mutation list h := congrArg StoreAnswer.resolved (h.resolve mutation)
  mutationCount address list h := congrArg StoreAnswer.counted h.mutationCount
  bind_fails := store.bind?_error_iff
  bind address mutation list h := h.bind? mutation
  run := store.exists_kept_run

/-- An entry that claims another address is resolved but makes no block; what stands behind the list
is not looked at. -/
example :
    let ins := Instruction.decoded 64 "ret" "" 1
    let store : DiskStore := ⟨FiniteMap.empty.set 32 (Instruction.Stored.encode [ins] ++ [255])⟩
    store.lookup.resolve 32 0 = .ok (some ins) ∧
      Block.bind? store.lookup 32 0 = .ok none := by
  decide +kernel

end DiskStore

end TraceGraph
