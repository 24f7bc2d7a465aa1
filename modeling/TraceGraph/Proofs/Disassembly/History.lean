import Mathlib.Logic.Function.Basic
import TraceGraph.Disassembly.DiskStore
import TraceGraph.Disassembly.MemoryStore

/-!
# The history of a store

There are two kinds of stores. One keeps lists of instructions in memory; the other keeps
stored values on disk, which it has to read and write again for every record. What both of
them keep is a history: at each address the instructions that were recorded there, oldest
first, each with its place as its mutation.

The module defines histories on their own (`History.record`, `History.of`) and then relates
the stores to them.

> `Store.Holds`: at every address the store reads the list that the history has there.

Two laws say that this is all one needs to know of a store. A lookup is answered from the
history (`Store.resolve_of_holds`), and a record hands its instruction out with the next
place and leaves a store that holds the history with it (`Store.record_of_holds`). For the
store on disk the second law has a condition: numbers and texts have to fit the fields for
their lengths (`StoreKind.Admits`), since otherwise the value that is written is not the
value that is read.

A history only grows. What is in it stays at its place in every later one
(`History.Extends`, `Extends.getElem?`), so a mutation that was handed out names the same
instruction forever, as long as the mutations have not wrapped around (`History.Numbered`).
-/

namespace TraceGraph

/-- What was recorded at each address, oldest first. -/
abbrev History := UInt64 → List Instruction

namespace History

/-- The history in which nothing was recorded. -/
def empty : History := fun _ => []

/-- An instruction as it is kept when it is recorded next. -/
def placed (h : History) (ins : Instruction) : Instruction :=
  { ins with mutation := .ofNat (h ins.address).length }

/-- The history with one more instruction. -/
def record (h : History) (ins : Instruction) : History :=
  Function.update h ins.address (h ins.address ++ [h.placed ins])

/-- The history of instructions that were recorded in this order. -/
def of (list : List Instruction) : History := list.foldl record empty

/-- Every mutation is the place that it stands for. -/
def Numbered (h : History) : Prop := ∀ address, (h address).length ≤ UInt32.size

/-- At every address the second history starts with the first one. -/
def Extends (h h' : History) : Prop := ∀ address, h address <+: h' address

variable {h h' h'' : History}

theorem Extends.refl (h : History) : Extends h h := fun _ => List.prefix_rfl

theorem Extends.trans (hext : Extends h h') (hext' : Extends h' h'') : Extends h h'' :=
  fun address => (hext address).trans (hext' address)

/-- A record appends at its own address. -/
theorem record_self (h : History) (ins : Instruction) :
    h.record ins ins.address = h ins.address ++ [h.placed ins] := Function.update_self ..

/-- A record leaves all other addresses alone. -/
theorem record_of_ne {address : UInt64} {ins : Instruction} (hne : address ≠ ins.address) :
    h.record ins address = h address := Function.update_of_ne hne ..

/-- A record makes a history longer. -/
theorem extends_record (h : History) (ins : Instruction) : Extends h (h.record ins) := by
  intro address
  by_cases haddress : address = ins.address
  · subst haddress
    rw [record_self]
    exact List.prefix_append ..
  · refine ⟨[], ?_⟩
    rw [List.append_nil, record_of_ne haddress]

theorem extends_foldl (h : History) (list : List Instruction) :
    Extends h (list.foldl record h) := by
  induction list generalizing h with
  | nil => exact .refl h
  | cons ins list ih => exact (extends_record h ins).trans (ih (h.record ins))

theorem of_append (list more : List Instruction) :
    of (list ++ more) = more.foldl record (of list) := List.foldl_append

/-- What has its place in a history keeps it. -/
theorem Extends.getElem? (hext : Extends h h') {address : UInt64} {i : Nat} {ins : Instruction}
    (hi : (h address)[i]? = some ins) : (h' address)[i]? = some ins := by
  obtain ⟨rest, hrest⟩ := hext address
  rw [← hrest]
  exact List.getElem?_append_left (List.getElem?_eq_some_iff.1 hi).1 ▸ hi

/-- If a history is numbered, all earlier ones are. -/
theorem Numbered.of_extends (hext : Extends h h') (hnumbered : h'.Numbered) : h.Numbered :=
  fun address => Nat.le_trans (hext address).length_le (hnumbered address)

/-- A recorded instruction stands at the place that its mutation names. -/
theorem getElem?_placed (hnumbered : (h.record ins).Numbered) :
    (h.record ins (h.placed ins).address)[(h.placed ins).mutation.toNat]? =
      some (h.placed ins) := by
  have hlength := hnumbered ins.address
  rw [record_self, List.length_append, List.length_singleton] at hlength
  have hplace : (h.placed ins).mutation.toNat = (h ins.address).length :=
    UInt32.toNat_ofNat_of_lt' hlength
  show (h.record ins ins.address)[(h.placed ins).mutation.toNat]? = _
  rw [record_self, hplace, List.getElem?_concat_length]

/-- At each address the history grows by what is recorded there. -/
theorem length_foldl_record (h : History) (list : List Instruction) (address : UInt64) :
    (list.foldl record h address).length =
      (h address).length + list.countP fun ins => ins.address = address := by
  induction list generalizing h with
  | nil => rfl
  | cons ins list ih =>
    rw [List.foldl_cons, ih, List.countP_cons]
    by_cases haddress : address = ins.address
    · subst haddress
      rw [record_self, List.length_append, List.length_singleton, if_pos (decide_eq_true rfl)]
      omega
    · rw [record_of_ne haddress, if_neg fun heq => haddress (of_decide_eq_true heq).symm,
        Nat.add_zero]

theorem length_of (list : List Instruction) (address : UInt64) :
    (of list address).length = list.countP fun ins => ins.address = address := by
  unfold of
  rw [length_foldl_record]
  exact Nat.zero_add _

/-- At no address there is more in a history than was recorded in all. -/
theorem length_of_le (list : List Instruction) (address : UInt64) :
    (of list address).length ≤ list.length := by
  rw [length_of]
  exact List.countP_le_length

/-- A history of not more than 2³² records is numbered. -/
theorem numbered_of {list : List Instruction} (h : list.length ≤ UInt32.size) :
    (of list).Numbered := fun address => Nat.le_trans (length_of_le list address) h

/-- What is in a history was recorded, but for its mutation. -/
theorem exists_of_mem_foldl {h : History} {list : List Instruction} {address : UInt64}
    {ins : Instruction} (hmem : ins ∈ list.foldl record h address) :
    ins ∈ h address ∨ ∃ given ∈ list, ins = { given with mutation := ins.mutation } := by
  induction list generalizing h with
  | nil => exact .inl hmem
  | cons first list ih =>
    rcases ih hmem with hmem | ⟨given, hgiven, heq⟩
    · -- it was there before or is the first instruction, with its place
      by_cases haddress : address = first.address
      · subst haddress
        rw [record_self, List.mem_append, List.mem_singleton] at hmem
        rcases hmem with hmem | hmem
        · exact .inl hmem
        · refine .inr ⟨first, List.mem_cons_self .., ?_⟩
          rw [hmem]
          rfl
      · rw [record_of_ne haddress] at hmem
        exact .inl hmem
    · exact .inr ⟨given, List.mem_cons_of_mem _ hgiven, heq⟩

end History

instance (ins : Instruction) : Decidable (Instruction.Stored.Fits ins) :=
  inferInstanceAs (Decidable ((Utf8.encode ins.mnemonic).length < UInt64.size ∧
    (Utf8.encode ins.operands).length < UInt64.size))

/-- The list of an address with one more instruction, written back. -/
def DiskStore.append (store : DiskStore) (ins : Instruction) (known : Option (List Instruction)) :
    Instruction × DiskStore :=
  let list := known.getD []
  let ins := { ins with mutation := .ofNat list.length }
  (ins, ⟨store.values.set ins.address (Instruction.Stored.encode (list ++ [ins]))⟩)

/-- A record reads and then appends to what it has read. -/
theorem DiskStore.record_eq (store : DiskStore) (ins : Instruction) :
    store.record ins = (store.load ins.address).map (store.append ins) := by
  unfold DiskStore.record
  cases store.load ins.address with
  | error failure => rfl
  | ok known => rfl

/-- The two kinds of stores. -/
inductive StoreKind where
  | memory
  | disk
deriving DecidableEq

/-- A store of either kind. -/
inductive Store where
  | memory (store : MemoryStore)
  | disk (store : DiskStore)

namespace StoreKind

/-- The store in which nothing was recorded. -/
def empty : StoreKind → Store
  | .memory => .memory .empty
  | .disk => .disk .empty

/-- A history can be kept: on disk, numbers and texts have to fit the fields for their lengths. -/
def Admits : StoreKind → History → Prop
  | .memory, _ => True
  | .disk, h => ∀ address, (h address).length < UInt64.size ∧
      ∀ ins ∈ h address, Instruction.Stored.Fits ins

/-- What has room for a history has room for every earlier one. -/
theorem Admits.of_extends {kind : StoreKind} {h h' : History} (hext : h.Extends h')
    (hadmits : kind.Admits h') : kind.Admits h := by
  cases kind with
  | memory => trivial
  | disk =>
    intro address
    obtain ⟨hlength, hfits⟩ := hadmits address
    refine ⟨Nat.lt_of_le_of_lt (hext address).length_le hlength, ?_⟩
    intro ins hmem
    exact hfits ins ((hext address).subset hmem)

/-- Any store has room for instructions with short enough texts, unless there are too many. -/
theorem admits_of (kind : StoreKind) {list : List Instruction} (hlength : list.length < UInt64.size)
    (hfits : ∀ ins ∈ list, Instruction.Stored.Fits ins) : kind.Admits (.of list) := by
  cases kind with
  | memory => trivial
  | disk =>
    intro address
    refine ⟨Nat.lt_of_le_of_lt (History.length_of_le list address) hlength, ?_⟩
    intro ins hmem
    rcases History.exists_of_mem_foldl hmem with hmem | ⟨given, hgiven, heq⟩
    · cases hmem
    · rw [heq]
      exact hfits given hgiven

end StoreKind

namespace Store

def kind : Store → StoreKind
  | .memory _ => .memory
  | .disk _ => .disk

/-- Records an instruction and returns it as it is kept. -/
def record : Store → Instruction → Except StoreFailure (Instruction × Store)
  | .memory store, ins => .ok ((store.record ins).1, .memory (store.record ins).2)
  | .disk store, ins => (store.record ins).map fun (ins, store) => (ins, .disk store)

def lookup : Store → Lookup
  | .memory store => store.lookup
  | .disk store => store.lookup

/-- The store keeps this history. -/
def Holds : Store → History → Prop
  | .memory store, h => ∀ address, store.recordedAt address = h address
  | .disk store, h => ∀ address, ∃ known, store.load address = .ok known ∧ known.getD [] = h address

variable {h : History}

/-- A store in which nothing was recorded holds the empty history. -/
theorem holds_empty (kind : StoreKind) : kind.empty.Holds .empty := by
  cases kind with
  | memory => exact fun _ => rfl
  | disk => exact fun _ => ⟨none, rfl, rfl⟩

theorem kind_empty (kind : StoreKind) : kind.empty.kind = kind := by
  cases kind with
  | memory => rfl
  | disk => rfl

/-- A lookup reads the history. -/
theorem resolve_of_holds {store : Store} (hholds : store.Holds h) (address : UInt64)
    (mutation : UInt32) :
    store.lookup.resolve address mutation = .ok (h address)[mutation.toNat]? := by
  cases store with
  | memory store =>
    show Except.ok (store.recordedAt address)[mutation.toNat]? = _
    rw [hholds address]
  | disk store =>
    obtain ⟨known, hload, hknown⟩ := hholds address
    show (store.load address).map _ = _
    rw [hload, ← hknown]
    rfl

/-- A record in memory. -/
theorem memory_record_holds {store : MemoryStore} (hholds : (Store.memory store).Holds h)
    (ins : Instruction) :
    (store.record ins).1 = h.placed ins ∧
      (Store.memory (store.record ins).2).Holds (h.record ins) := by
  have hlist := hholds ins.address
  have hplaced : (store.record ins).1 = h.placed ins := by
    unfold MemoryStore.record History.placed
    rw [hlist]
  refine ⟨hplaced, ?_⟩
  intro address
  unfold MemoryStore.record
  show (((store.blocks.set ins.address _).get? address).getD []) = _
  rw [FiniteMap.get?_set]
  by_cases haddress : address = ins.address
  · subst haddress
    rw [if_pos rfl, History.record_self, hlist]
    rfl
  · rw [if_neg haddress, History.record_of_ne haddress]
    exact hholds address

/-- A record on disk, for which the new value is read back as it was written. -/
theorem disk_record_holds {store : DiskStore} (hholds : (Store.disk store).Holds h)
    {ins : Instruction} (hadmits : StoreKind.disk.Admits (h.record ins)) :
    ∃ store', store.record ins = .ok (h.placed ins, store') ∧
      (Store.disk store').Holds (h.record ins) := by
  obtain ⟨known, hload, hknown⟩ := hholds ins.address
  obtain ⟨hlength, hfits⟩ := hadmits ins.address
  rw [History.record_self] at hlength hfits
  have hrecord : store.record ins = .ok (h.placed ins,
      ⟨store.values.set ins.address
        (Instruction.Stored.encode (h ins.address ++ [h.placed ins]))⟩) := by
    unfold DiskStore.record
    rw [hload]
    dsimp only
    rw [hknown]
    rfl
  refine ⟨_, hrecord, ?_⟩
  intro address
  rw [DiskStore.load_eq]
  dsimp only
  rw [FiniteMap.get?_set]
  by_cases haddress : address = ins.address
  · subst haddress
    -- the value that was just written is read back
    have hdecode := Instruction.Stored.decode?_encode_append hlength hfits []
    rw [List.append_nil] at hdecode
    rw [if_pos rfl, History.record_self]
    dsimp only
    rw [hdecode]
    exact ⟨_, rfl, rfl⟩
  · rw [if_neg haddress, History.record_of_ne haddress, ← DiskStore.load_eq]
    exact hholds address

/-- A record appends to the history. -/
theorem record_of_holds {store : Store} (hholds : store.Holds h) {ins : Instruction}
    (hadmits : store.kind.Admits (h.record ins)) :
    ∃ store', store.record ins = .ok (h.placed ins, store') ∧ store'.kind = store.kind ∧
      store'.Holds (h.record ins) := by
  cases store with
  | memory store =>
    obtain ⟨hplaced, hholds'⟩ := memory_record_holds hholds ins
    refine ⟨.memory (store.record ins).2, ?_, rfl, hholds'⟩
    show Except.ok ((store.record ins).1, _) = _
    rw [hplaced]
  | disk store =>
    obtain ⟨store', hrecord, hholds'⟩ := disk_record_holds hholds hadmits
    refine ⟨.disk store', ?_, rfl, hholds'⟩
    show (store.record ins).map _ = _
    rw [hrecord]
    rfl

end Store

end TraceGraph
