import Mathlib.Data.Finset.Card
import TraceGraph.Proofs.Disassembly.History

/-!
# What a store answers

A store is called by records, lookups and counts. This module says what it answers to a
sequence of calls, without reference to what is inside the store.

The answer to a call is determined by the calls before it: `StoreCall.answerAfter` computes
it from their history. That stores of both kinds answer so is shown in two steps.

* `Store.Keeps.answer`: a store that keeps the history of earlier calls answers the next one
  from it, and then keeps the history with that call. It goes by cases on the call; the laws
  for histories settle records and lookups, and the count of addresses needs that a record
  adds its address and no other (`mem_addresses_of_record`).
* `Store.Keeps.run`: by induction every call of a sequence is answered from the calls before
  it.

The answers of an empty store therefore do not depend on its kind (`Recordable.run_empty`).
That they are what one expects of a store is `Faithful`, which speaks of calls and answers
only: a record hands its instruction out with the number of earlier ones at its address as
its mutation, a mutation is resolved to what was handed out for it, the instructions issued
at an address are those recorded there in order (`Recordable.faithful`).

The conditions are collected in `Recordable`: texts that fit, and at no address more records
than there are mutations.
-/

namespace TraceGraph

/-- A call of a store. -/
inductive StoreCall where
  | record (ins : Instruction)
  | resolve (address : UInt64) (mutation : UInt32)
  | mutationCount (address : UInt64)
  | addressCount
deriving DecidableEq

/-- What a store answers to a call. -/
inductive StoreAnswer where
  | recorded (result : Except StoreFailure Instruction)
  | resolved (result : Except StoreFailure (Option Instruction))
  | counted (result : Except StoreFailure Nat)

/-- The instructions that are recorded by calls. -/
def recordsOf (calls : List StoreCall) : List Instruction :=
  calls.filterMap fun
    | .record ins => some ins
    | _ => none

/-- The instructions that are recorded at an address by calls. -/
def recordsAt (address : UInt64) (calls : List StoreCall) : List Instruction :=
  (recordsOf calls).filter fun ins => ins.address = address

/-- The instructions that were handed out by answers to records at an address. -/
def issuedAt (address : UInt64) (answers : List StoreAnswer) : List Instruction :=
  (answers.filterMap fun
    | .recorded (.ok ins) => some ins
    | _ => none).filter fun ins => ins.address = address

/-- Any store has room for what calls record. -/
def Recordable (calls : List StoreCall) : Prop :=
  ∀ ins ∈ recordsOf calls,
    Instruction.Stored.Fits ins ∧ (recordsAt ins.address calls).length ≤ UInt32.size

instance (calls : List StoreCall) : Decidable (Recordable calls) :=
  inferInstanceAs (Decidable (∀ ins ∈ recordsOf calls, _ ∧ _))

/-- Answers that go back to the calls before and to nothing else. -/
structure Faithful (calls : List StoreCall) (answers : List StoreAnswer) : Prop where
  length_eq : answers.length = calls.length
  /-- A record hands its instruction out, with the number of earlier ones as its mutation. -/
  record : ∀ (n : Nat) ins, calls[n]? = some (.record ins) → answers[n]? = some (.recorded (.ok
    { ins with mutation := .ofNat (recordsAt ins.address (calls.take n)).length }))
  /-- A mutation is resolved to what was handed out for it, `none` if it was not yet. -/
  resolve : ∀ (n : Nat) address mutation, calls[n]? = some (.resolve address mutation) →
    answers[n]? = some (.resolved (.ok (issuedAt address (answers.take n))[mutation.toNat]?))
  mutationCount : ∀ (n : Nat) address, calls[n]? = some (.mutationCount address) →
    answers[n]? = some (.counted (.ok (recordsAt address (calls.take n)).length))
  /-- Addresses are counted once, however often something is recorded there. -/
  addressCount : ∀ n : Nat, calls[n]? = some .addressCount →
    answers[n]? = some (.counted (.ok ((recordsOf (calls.take n)).map (·.address)).toFinset.card))
  /-- What is issued at an address depends on what is recorded there and on nothing else. -/
  issued : ∀ address, issuedAt address answers =
    (recordsAt address calls).mapIdx fun i ins => { ins with mutation := .ofNat i }
  /-- The mutations issued at an address count up from zero. -/
  mutations : ∀ address, (issuedAt address answers).map (·.mutation.toNat) =
    List.range (recordsAt address calls).length

/-! ## Histories of calls -/

theorem recordsOf_append (calls more : List StoreCall) :
    recordsOf (calls ++ more) = recordsOf calls ++ recordsOf more := List.filterMap_append

theorem recordsAt_append (address : UInt64) (calls more : List StoreCall) :
    recordsAt address (calls ++ more) = recordsAt address calls ++ recordsAt address more := by
  unfold recordsAt
  rw [recordsOf_append, List.filter_append]

theorem issuedAt_append (address : UInt64) (answers more : List StoreAnswer) :
    issuedAt address (answers ++ more) = issuedAt address answers ++ issuedAt address more := by
  unfold issuedAt
  rw [List.filterMap_append, List.filter_append]

namespace History

theorem of_concat (list : List Instruction) (ins : Instruction) :
    of (list ++ [ins]) = (of list).record ins := of_append list [ins]

/-- At each address a history has what was recorded there, each with its place. -/
theorem of_apply (list : List Instruction) (address : UInt64) :
    of list address = (list.filter fun ins => ins.address = address).mapIdx
      fun i ins => { ins with mutation := .ofNat i } := by
  -- from the end, where a record is placed by what is before it
  induction list using List.reverseRecOn with
  | nil => rfl
  | append_singleton list ins ih =>
    rw [of_concat, List.filter_append]
    by_cases haddress : address = ins.address
    · subst haddress
      have hlast : [ins].filter (fun other => other.address = ins.address) = [ins] :=
        List.filter_cons_of_pos (decide_eq_true rfl)
      rw [record_self, hlast, List.mapIdx_concat, ← ih]
      unfold placed
      rw [ih, List.length_mapIdx]
    · rw [record_of_ne haddress, List.filter_cons_of_neg, List.filter_nil, List.append_nil, ih]
      rw [decide_eq_true_iff]
      exact Ne.symm haddress

/-- The history that calls make. -/
def ofCalls (calls : List StoreCall) : History := of (recordsOf calls)

theorem ofCalls_apply (calls : List StoreCall) (address : UInt64) :
    ofCalls calls address =
      (recordsAt address calls).mapIdx fun i ins => { ins with mutation := .ofNat i } :=
  of_apply ..

/-- A history is as long as there were records at the address. -/
theorem length_ofCalls (calls : List StoreCall) (address : UInt64) :
    (ofCalls calls address).length = (recordsAt address calls).length := by
  rw [ofCalls_apply, List.length_mapIdx]

theorem ofCalls_record (calls : List StoreCall) (ins : Instruction) :
    ofCalls (calls ++ [.record ins]) = (ofCalls calls).record ins := by
  unfold ofCalls
  rw [recordsOf_append]
  exact of_concat ..

/-- Only records make history. -/
theorem ofCalls_of_lookup (calls : List StoreCall) {call : StoreCall}
    (hcall : recordsOf [call] = []) : ofCalls (calls ++ [call]) = ofCalls calls := by
  unfold ofCalls
  rw [recordsOf_append, hcall, List.append_nil]

end History

/-- At no address more is recorded than there are mutations. -/
theorem Recordable.length_le {calls : List StoreCall} (h : Recordable calls) (address : UInt64) :
    (recordsAt address calls).length ≤ UInt32.size := by
  cases hat : recordsAt address calls with
  | nil => exact Nat.zero_le _
  | cons ins rest =>
    have hmem : ins ∈ recordsAt address calls := hat ▸ List.mem_cons_self
    obtain ⟨hins, haddress⟩ := List.mem_filter.1 hmem
    rw [← hat, ← of_decide_eq_true haddress]
    exact (h ins hins).2

/-- If there is room for calls, there is room for the first of them. -/
theorem Recordable.of_append {calls more : List StoreCall} (h : Recordable (calls ++ more)) :
    Recordable calls := by
  intro ins hins
  obtain ⟨hfits, hlength⟩ := h ins (recordsOf_append calls more ▸ List.mem_append_left _ hins)
  refine ⟨hfits, Nat.le_trans ?_ hlength⟩
  rw [recordsAt_append, List.length_append]
  exact Nat.le_add_right ..

/-- If there is room for calls, a store of any kind can keep their history. -/
theorem Recordable.admits {calls : List StoreCall} (h : Recordable calls) (kind : StoreKind) :
    kind.Admits (.ofCalls calls) := by
  cases kind with
  | memory => trivial
  | disk =>
    intro address
    refine ⟨?_, ?_⟩
    · rw [History.length_ofCalls]
      exact Nat.lt_of_le_of_lt (h.length_le address) (by decide)
    · intro ins hmem
      rcases History.exists_of_mem_foldl hmem with hmem | ⟨given, hgiven, heq⟩
      · cases hmem
      · rw [heq]
        exact (h given hgiven).1

/-! ## Addresses -/

/-- A map has as many entries as keys. -/
theorem FiniteMap.size_eq_card {κ α : Type} [DecidableEq κ] (map : FiniteMap κ α) {keys : Finset κ}
    (h : ∀ key, key ∈ map.entries.map Prod.fst ↔ key ∈ keys) : map.size = keys.card := by
  have hkeys : (map.entries.map Prod.fst).toFinset = keys := by
    ext key
    rw [List.mem_toFinset, h]
  rw [← hkeys, List.toFinset_card_of_nodup map.nodup_keys, List.length_map]
  rfl

namespace Store

/-- The addresses that have a value. -/
def addresses : Store → List UInt64
  | .memory store => store.blocks.entries.map Prod.fst
  | .disk store => store.values.entries.map Prod.fst

/-- The number of addresses that have a value. -/
def addressCount : Store → Nat
  | .memory store => store.addressCount
  | .disk store => store.addressCount

/-- A record makes sure of its address and of no other. -/
theorem mem_addresses_of_record {store store' : Store} {ins kept : Instruction}
    (h : store.record ins = .ok (kept, store')) (address : UInt64) :
    address ∈ store'.addresses ↔ address = ins.address ∨ address ∈ store.addresses := by
  cases store with
  | memory store =>
    cases h
    exact FiniteMap.mem_keys_store
  | disk store =>
    unfold Store.record DiskStore.record at h
    dsimp only at h
    split at h
    next => cases h
    next =>
      cases h
      exact FiniteMap.mem_keys_store

/-- The store keeps what calls recorded and has no other addresses. -/
structure Keeps (store : Store) (calls : List StoreCall) : Prop where
  holds : store.Holds (.ofCalls calls)
  addresses : ∀ address, address ∈ store.addresses ↔ ∃ ins ∈ recordsOf calls, ins.address = address

/-- A store in which nothing was recorded keeps no calls. -/
theorem keeps_empty (kind : StoreKind) : kind.empty.Keeps [] := by
  refine ⟨holds_empty kind, ?_⟩
  intro address
  refine iff_of_false ?_ ?_
  · cases kind <;> exact List.not_mem_nil
  · rintro ⟨ins, hins, -⟩
    exact List.not_mem_nil hins

/-- A store counts the addresses of the records that were made. -/
theorem Keeps.addressCount_eq {store : Store} {calls : List StoreCall} (h : store.Keeps calls) :
    store.addressCount = ((recordsOf calls).map (·.address)).toFinset.card := by
  have hkeys : ∀ address, address ∈ store.addresses ↔
      address ∈ ((recordsOf calls).map (·.address)).toFinset := by
    intro address
    rw [h.addresses, List.mem_toFinset, List.mem_map]
  cases store with
  | memory store => exact store.blocks.size_eq_card hkeys
  | disk store => exact store.values.size_eq_card hkeys

/-- Makes one call; a failed record leaves the store as it is. -/
def answer (store : Store) : StoreCall → StoreAnswer × Store
  | .record ins =>
    match store.record ins with
    | .error failure => (.recorded (.error failure), store)
    | .ok (ins, store) => (.recorded (.ok ins), store)
  | .resolve address mutation => (.resolved (store.lookup.resolve address mutation), store)
  | .mutationCount address => (.counted (store.lookup.mutationCount address), store)
  | .addressCount => (.counted (.ok store.addressCount), store)

/-- Makes calls in order. -/
def run : List StoreCall → Store → List StoreAnswer × Store
  | [], store => ([], store)
  | call :: calls, store =>
    ((store.answer call).1 :: (run calls (store.answer call).2).1,
      (run calls (store.answer call).2).2)

theorem run_append (calls more : List StoreCall) (store : Store) :
    run (calls ++ more) store =
      ((run calls store).1 ++ (run more (run calls store).2).1,
        (run more (run calls store).2).2) := by
  induction calls generalizing store with
  | nil => rfl
  | cons call calls ih =>
    rw [List.cons_append, run, ih]
    rfl

end Store

/-! ## Answers from the history -/

/-- What a store has to answer to a call after earlier ones. -/
def StoreCall.answerAfter (earlier : List StoreCall) : StoreCall → StoreAnswer
  | .record ins => .recorded (.ok ((History.ofCalls earlier).placed ins))
  | .resolve address mutation =>
    .resolved (.ok (History.ofCalls earlier address)[mutation.toNat]?)
  | .mutationCount address => .counted (.ok (recordsAt address earlier).length)
  | .addressCount => .counted (.ok ((recordsOf earlier).map (·.address)).toFinset.card)

namespace Store

/-- A lookup counts the history. -/
theorem mutationCount_of_holds {store : Store} {h : History} (hholds : store.Holds h)
    (address : UInt64) : store.lookup.mutationCount address = .ok (h address).length := by
  cases store with
  | memory store =>
    show Except.ok (store.recordedAt address).length = _
    rw [hholds address]
  | disk store =>
    obtain ⟨known, hload, hknown⟩ := hholds address
    show (store.load address).map _ = _
    rw [hload, ← hknown]
    rfl

/-- A call is answered from the history, and the store keeps the history with that call. -/
theorem Keeps.answer {store : Store} {earlier : List StoreCall} (h : store.Keeps earlier)
    {call : StoreCall} (hrecordable : Recordable (earlier ++ [call])) :
    (store.answer call).1 = call.answerAfter earlier ∧
      (store.answer call).2.Keeps (earlier ++ [call]) := by
  -- a lookup leaves both the store and the history as they are
  have hsame : recordsOf [call] = [] → store.Keeps (earlier ++ [call]) := by
    intro hlookup
    refine ⟨History.ofCalls_of_lookup earlier hlookup ▸ h.holds, ?_⟩
    rw [recordsOf_append, hlookup, List.append_nil]
    exact h.addresses
  cases call with
  | record ins =>
    have hnext := History.ofCalls_record earlier ins
    obtain ⟨store', hrecord, -, hholds⟩ :=
      record_of_holds h.holds (hnext ▸ hrecordable.admits store.kind)
    unfold Store.answer
    dsimp only
    rw [hrecord]
    refine ⟨rfl, hnext ▸ hholds, ?_⟩
    intro address
    rw [mem_addresses_of_record hrecord, h.addresses, recordsOf_append]
    simp only [List.mem_append, or_and_right, exists_or]
    rw [or_comm]
    refine or_congr_right ?_
    simp [recordsOf, eq_comm]
  | resolve address mutation =>
    exact ⟨congrArg StoreAnswer.resolved (resolve_of_holds h.holds address mutation), hsame rfl⟩
  | mutationCount address =>
    refine ⟨congrArg StoreAnswer.counted ?_, hsame rfl⟩
    rw [mutationCount_of_holds h.holds, History.length_ofCalls]
  | addressCount =>
    refine ⟨?_, hsame rfl⟩
    show StoreAnswer.counted (.ok store.addressCount) = _
    rw [h.addressCount_eq]
    rfl

/-- Calls are answered from the history, each from that of the calls before it. -/
theorem Keeps.run {store : Store} {earlier calls : List StoreCall} (h : store.Keeps earlier)
    (hrecordable : Recordable (earlier ++ calls)) :
    (Store.run calls store).1 =
      calls.mapIdx fun n call => call.answerAfter (earlier ++ calls.take n) := by
  induction calls generalizing store earlier with
  | nil => rfl
  | cons call calls ih =>
    -- the first call is one of the earlier ones for all others
    have happend : earlier ++ call :: calls = earlier ++ [call] ++ calls := by simp
    rw [happend] at hrecordable
    obtain ⟨hanswer, hkeeps⟩ := h.answer hrecordable.of_append
    rw [Store.run, hanswer, ih hkeeps hrecordable, List.mapIdx_cons]
    simp

end Store

/-- The answers of a store in which nothing was recorded before. -/
def answersTo (calls : List StoreCall) : List StoreAnswer :=
  calls.mapIdx fun n call => call.answerAfter (calls.take n)

/-- A last call is answered from those before and changes no earlier answer. -/
theorem answersTo_concat (calls : List StoreCall) (call : StoreCall) :
    answersTo (calls ++ [call]) = answersTo calls ++ [call.answerAfter calls] := by
  unfold answersTo
  rw [List.mapIdx_concat, List.take_left]
  congr 1
  rw [List.mapIdx_eq_mapIdx_iff]
  intro n hn
  rw [List.take_append_of_le_length (Nat.le_of_lt hn)]

theorem getElem?_answersTo {calls : List StoreCall} {n : Nat} {call : StoreCall}
    (hcall : calls[n]? = some call) :
    (answersTo calls)[n]? = some (call.answerAfter (calls.take n)) := by
  unfold answersTo
  rw [List.getElem?_mapIdx, hcall]
  rfl

/-- The first answers are those to the first calls. -/
theorem answersTo_take (calls : List StoreCall) (n : Nat) :
    (answersTo calls).take n = answersTo (calls.take n) := by
  refine List.ext_getElem? ?_
  intro i
  unfold answersTo
  rw [List.getElem?_take, List.getElem?_mapIdx, List.getElem?_mapIdx, List.getElem?_take]
  split
  next hlt => rw [List.take_take, Nat.min_eq_left (Nat.le_of_lt hlt)]
  next => rfl

/-- What was handed out at an address is its history. -/
theorem issuedAt_answersTo (address : UInt64) (calls : List StoreCall) :
    issuedAt address (answersTo calls) = History.ofCalls calls address := by
  induction calls using List.reverseRecOn with
  | nil => rfl
  | append_singleton calls call ih =>
    rw [answersTo_concat, issuedAt_append, ih]
    cases call with
    | record ins =>
      rw [History.ofCalls_record]
      by_cases haddress : address = ins.address
      · subst haddress
        rw [History.record_self]
        congr 1
        exact List.filter_cons_of_pos (decide_eq_true rfl)
      · have hnone : issuedAt address [StoreCall.answerAfter calls (.record ins)] = [] := by
          refine List.filter_cons_of_neg ?_
          rw [decide_eq_true_iff]
          exact Ne.symm haddress
        rw [History.record_of_ne haddress, hnone, List.append_nil]
    | resolve address' mutation =>
      rw [History.ofCalls_of_lookup calls rfl]
      exact List.append_nil _
    | mutationCount address' =>
      rw [History.ofCalls_of_lookup calls rfl]
      exact List.append_nil _
    | addressCount =>
      rw [History.ofCalls_of_lookup calls rfl]
      exact List.append_nil _

/-- The mutations at an address count up from zero, since none has wrapped around. -/
theorem Recordable.mutations {calls : List StoreCall} (h : Recordable calls) (address : UInt64) :
    (History.ofCalls calls address).map (·.mutation.toNat) =
      List.range (recordsAt address calls).length := by
  rw [History.ofCalls_apply]
  refine List.ext_getElem (by simp) ?_
  intro i hi _
  rw [List.length_map, List.length_mapIdx] at hi
  rw [List.getElem_map, List.getElem_mapIdx, List.getElem_range]
  exact UInt32.toNat_ofNat_of_lt' (Nat.lt_of_lt_of_le hi (h.length_le address))

/-- The answers from the history are faithful. -/
theorem Recordable.faithful {calls : List StoreCall} (h : Recordable calls) :
    Faithful calls (answersTo calls) where
  length_eq := List.length_mapIdx
  record n ins hcall := by
    rw [getElem?_answersTo hcall, ← History.length_ofCalls]
    rfl
  resolve n address mutation hcall := by
    rw [getElem?_answersTo hcall, answersTo_take, issuedAt_answersTo]
    rfl
  mutationCount n address hcall := getElem?_answersTo hcall
  addressCount n hcall := getElem?_answersTo hcall
  issued address := by rw [issuedAt_answersTo, History.ofCalls_apply]
  mutations address := by rw [issuedAt_answersTo, h.mutations]

/-- A store in which nothing was recorded before answers the same, of whichever kind it is. -/
theorem Recordable.run_empty {calls : List StoreCall} (h : Recordable calls) (kind : StoreKind) :
    (Store.run calls kind.empty).1 = answersTo calls :=
  (Store.keeps_empty kind).run h

end TraceGraph
