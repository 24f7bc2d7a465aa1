import TraceGraph.Proofs.Disassembly.Answers

/-!
# A disk store with several callers

A record on disk reads a value, appends to it and writes it back, and a lock keeps other
records out for as long as that takes. Lookups take no lock. So the calls of several callers
may interleave in any way, and the store may be opened again at any moment, which cuts off
the calls under way.

The module models this as a machine. A `Service` is a disk store with the phase of each
caller and the holder of the lock; a `Turn` is a call, one move of one caller or an opening.
The machine writes down in `log` which calls took effect, in this order, and in `returned`
which ones returned.

Whatever the interleaving, the calls that took effect have the answers that they have when
they are made one after the other, in the order in which they took effect. This is the
invariant `Service.Sound`. Its core is `InPhase`: who has read a value and not yet written
has the lock, and what it has read is still there. That survives a move of another caller
because writing needs the lock too (`Sound.eq_of_loaded`).

* A move is one of three: a caller enters a phase without answer (`Sound.enter`), its call
  takes effect (`Sound.settle`), or the call returns (`Sound.return`). Each of them keeps
  the invariant, so every move does (`Sound.advance`), every turn (`Sound.step`) and every
  run (`Sound.run`).
* No call is stuck. A caller that has the lock or does not need it can go on until it
  returns (`exists_finished_of_free`); a caller that waits can let the holder go first
  (`Sound.exists_returned`).

Together with the laws for sequences of calls this gives `Service.answers_as_memory`, which
compares the disk store and its callers with a store in memory.
-/

namespace TraceGraph

/-- How far the call of a caller has come. -/
inductive CallPhase where
  | idle
  | called (call : StoreCall)
  /-- A record has got the lock. -/
  | locked (ins : Instruction)
  /-- A record has read what is known at its address. -/
  | loaded (ins : Instruction) (known : Option (List Instruction))
  /-- The call has taken effect and has not returned yet. -/
  | answered (call : StoreCall) (answer : StoreAnswer)

/-- A call that took effect. -/
structure Served (κ : Type) where
  caller : κ
  call : StoreCall
  answer : StoreAnswer

/-- Whether a record is between getting the lock and writing. -/
def CallPhase.isRecording : CallPhase → Bool
  | locked _ | loaded _ _ => true
  | _ => false

/-- The call that is under way. -/
def CallPhase.call? : CallPhase → Option StoreCall
  | idle => none
  | called call | answered call _ => some call
  | locked ins | loaded ins _ => some (.record ins)

/-- The call that has still to return its answer. -/
def CallPhase.pending {κ : Type} (caller : κ) : CallPhase → List (Served κ)
  | answered call answer => [⟨caller, call, answer⟩]
  | _ => []

/-- A disk store that is open, and its callers. -/
structure Service (κ : Type) where
  disk : DiskStore
  /-- Who has the lock. -/
  lock : Option κ := none
  phase : κ → CallPhase := fun _ => .idle
  /-- The calls in the order in which they took effect. -/
  log : List (Served κ) := []
  /-- The calls in the order in which they returned. -/
  returned : List (Served κ) := []

/-- What happens next to an open store. -/
inductive Turn (κ : Type) where
  | call (caller : κ) (call : StoreCall)
  /-- A caller goes on with its call. -/
  | advance (caller : κ)
  /-- The store is opened again, and the calls under way are cut off. -/
  | reopen

variable {κ : Type} [DecidableEq κ]

/-- The calls of one caller among those of all. -/
def servedTo (caller : κ) (list : List (Served κ)) : List (Served κ) :=
  list.filter fun served => served.caller = caller

theorem servedTo_concat_self (list : List (Served κ)) (served : Served κ) :
    servedTo served.caller (list ++ [served]) = servedTo served.caller list ++ [served] := by
  unfold servedTo
  rw [List.filter_append]
  congr 1
  exact List.filter_cons_of_pos (decide_eq_true rfl)

theorem servedTo_concat_of_ne {caller : κ} {served : Served κ} (hne : caller ≠ served.caller)
    (list : List (Served κ)) : servedTo caller (list ++ [served]) = servedTo caller list := by
  unfold servedTo
  rw [List.filter_append, List.filter_cons_of_neg, List.filter_nil, List.append_nil]
  rw [decide_eq_true_iff]
  exact Ne.symm hne

namespace Service

/-- A call takes effect. -/
def settle (s : Service κ) (caller : κ) (call : StoreCall) (answer : StoreAnswer)
    (disk : DiskStore) : Service κ :=
  { s with
    disk
    phase := Function.update s.phase caller (.answered call answer)
    log := s.log ++ [⟨caller, call, answer⟩] }

/-- A caller goes on with its call, unless it waits for the lock. -/
def advance (s : Service κ) (caller : κ) : Service κ :=
  match s.phase caller with
  | .idle => s
  | .called (.record ins) =>
    if s.lock = none then
      { s with lock := some caller, phase := Function.update s.phase caller (.locked ins) }
    else s
  | .called (.resolve address mutation) =>
    s.settle caller (.resolve address mutation)
      (.resolved (s.disk.lookup.resolve address mutation)) s.disk
  | .called (.mutationCount address) =>
    s.settle caller (.mutationCount address) (.counted (s.disk.lookup.mutationCount address)) s.disk
  | .called .addressCount =>
    s.settle caller .addressCount (.counted (.ok s.disk.addressCount)) s.disk
  | .locked ins =>
    match s.disk.load ins.address with
    | .error failure => s.settle caller (.record ins) (.recorded (.error failure)) s.disk
    | .ok known => { s with phase := Function.update s.phase caller (.loaded ins known) }
  | .loaded ins known =>
    s.settle caller (.record ins) (.recorded (.ok (s.disk.append ins known).1))
      (s.disk.append ins known).2
  | .answered call answer =>
    { s with
      lock := if s.lock = some caller then none else s.lock
      phase := Function.update s.phase caller .idle
      returned := s.returned ++ [⟨caller, call, answer⟩] }

/-- Takes a turn. A caller makes one call at a time. -/
def step (s : Service κ) : Turn κ → Service κ
  | .call caller call =>
    match s.phase caller with
    | .idle => { s with phase := Function.update s.phase caller (.called call) }
    | _ => s
  | .advance caller => s.advance caller
  | .reopen => { s with lock := none, phase := fun _ => .idle }

/-- Takes turns in order. -/
def run (turns : List (Turn κ)) (s : Service κ) : Service κ := turns.foldl step s

/-! ## One order for all calls -/

/-- A caller can be in this phase. Who is recording has the lock, and what it has read is still
there. -/
structure InPhase (s : Service κ) (caller : κ) (phase : CallPhase) : Prop where
  lock_eq : phase.isRecording = true → s.lock = some caller
  /-- Who has the lock does not wait for it. -/
  holder : s.lock = some caller →
    phase.isRecording = true ∨ ∃ call answer, phase = .answered call answer
  current : ∀ ins known, phase = .loaded ins known → s.disk.load ins.address = .ok known
  /-- What returns is what took effect. -/
  delivered : (servedTo caller s.returned ++ phase.pending caller).Sublist (servedTo caller s.log)

/-- The calls in the order of their effects are a sequence of calls of the store that was opened
first, and each caller is in a phase that goes with that. -/
structure Sound (start : DiskStore) (s : Service κ) : Prop where
  sequential : Store.run (s.log.map (·.call)) (.disk start) = (s.log.map (·.answer), .disk s.disk)
  phases : ∀ caller, s.InPhase caller (s.phase caller)

variable {start : DiskStore} {s s' : Service κ} {caller : κ}

/-- A caller that makes no call and has no lock asks nothing of the store. -/
theorem inPhase_idle (hlock : s.lock ≠ some caller)
    (hdelivered : (servedTo caller s.returned).Sublist (servedTo caller s.log)) :
    s.InPhase caller .idle where
  lock_eq hrecording := absurd hrecording Bool.false_ne_true
  holder hsome := absurd hsome hlock
  current _ _ hphase := CallPhase.noConfusion hphase
  delivered := (List.append_nil _).symm ▸ hdelivered

/-- A store that was just opened is sound. -/
theorem sound_opened (start : DiskStore) : Sound start ({ disk := start } : Service κ) where
  sequential := rfl
  phases _ := inPhase_idle (Option.some_ne_none _).symm (List.Sublist.refl [])

/-- A turn changes the phase of one caller. -/
theorem Sound.turn (h : s.Sound start) {phase : CallPhase}
    (hphase : s'.phase = Function.update s.phase caller phase)
    (hsequential :
      Store.run (s'.log.map (·.call)) (.disk start) = (s'.log.map (·.answer), .disk s'.disk))
    (hself : s'.InPhase caller phase)
    (hothers : ∀ other ≠ caller, s.InPhase other (s.phase other) →
      s'.InPhase other (s.phase other)) : s'.Sound start := by
  refine ⟨hsequential, ?_⟩
  rw [hphase]
  refine (Function.forall_update_iff s.phase fun other p => s'.InPhase other p).2 ⟨hself, ?_⟩
  intro other hother
  exact hothers other hother (h.phases other)

/-- A caller enters a phase in which it has no answer. -/
theorem Sound.enter (h : s.Sound start) {phase : CallPhase} {lock : Option κ}
    (hbefore : (s.phase caller).pending caller = []) (hafter : phase.pending caller = [])
    (hlock : lock = s.lock ∨ (s.lock = none ∧ lock = some caller))
    (hholds : phase.isRecording = true ↔ lock = some caller)
    (hcurrent : ∀ ins known, phase = .loaded ins known → s.disk.load ins.address = .ok known) :
    Sound start { s with lock, phase := Function.update s.phase caller phase } := by
  refine h.turn rfl h.sequential ⟨hholds.1, fun hsome => .inl (hholds.2 hsome), hcurrent, ?_⟩ ?_
  · rw [hafter, ← hbefore]
    exact (h.phases caller).delivered
  · intro other hother hphase
    -- the lock of another caller is left to it
    have hlock' : lock = some other ↔ s.lock = some other := by
      rcases hlock with heq | ⟨hnone, hsome⟩
      · rw [heq]
      · rw [hnone, hsome]
        exact iff_of_false (fun heq => hother (Option.some.inj heq).symm)
          (Option.some_ne_none _).symm
    exact ⟨fun hrecording => hlock'.2 (hphase.lock_eq hrecording),
      fun hsome => hphase.holder (hlock'.1 hsome), hphase.current, hphase.delivered⟩

/-- A call takes effect in agreement with the store as it is. -/
theorem Sound.settle (h : s.Sound start) {call : StoreCall} {answer : StoreAnswer}
    {disk : DiskStore} (hbefore : (s.phase caller).pending caller = [])
    (hanswer : (Store.disk s.disk).answer call = (answer, .disk disk))
    (hcurrent : ∀ other ≠ caller, ∀ ins known, s.phase other = .loaded ins known →
      disk.load ins.address = .ok known) :
    Sound start (s.settle caller call answer disk) := by
  refine h.turn rfl ?_ ⟨?_, fun _ => .inr ⟨call, answer, rfl⟩, ?_, ?_⟩ ?_
  · unfold Service.settle
    rw [List.map_append, Store.run_append, h.sequential, List.map_append]
    show (_ ++ [((Store.disk s.disk).answer call).1], ((Store.disk s.disk).answer call).2) = _
    rw [hanswer]
    rfl
  · intro hrecording
    exact absurd hrecording Bool.false_ne_true
  · intro ins known hphase
    cases hphase
  · have hdelivered := (h.phases caller).delivered
    rw [hbefore, List.append_nil] at hdelivered
    show (servedTo caller s.returned ++ [_]).Sublist (servedTo caller (s.log ++ [_]))
    rw [servedTo_concat_self s.log ⟨caller, call, answer⟩]
    exact hdelivered.append (List.Sublist.refl _)
  · intro other hother hphase
    refine ⟨hphase.lock_eq, hphase.holder, hcurrent other hother, ?_⟩
    show (servedTo other s.returned ++ _).Sublist (servedTo other (s.log ++ [_]))
    rw [servedTo_concat_of_ne hother]
    exact hphase.delivered

/-- A call that took effect returns, and a record gives the lock back. -/
theorem Sound.return (h : s.Sound start) {call : StoreCall} {answer : StoreAnswer}
    (hphase : s.phase caller = .answered call answer) :
    Sound start
      { s with
        lock := if s.lock = some caller then none else s.lock
        phase := Function.update s.phase caller .idle
        returned := s.returned ++ [⟨caller, call, answer⟩] } := by
  refine h.turn rfl h.sequential (inPhase_idle ?_ ?_) ?_
  · dsimp only
    by_cases hlock : s.lock = some caller
    · rw [if_pos hlock]
      exact (Option.some_ne_none _).symm
    · rwa [if_neg hlock]
  · have hdelivered := (h.phases caller).delivered
    rw [hphase] at hdelivered
    dsimp only
    rw [servedTo_concat_self s.returned ⟨caller, call, answer⟩]
    exact hdelivered
  · intro other hother hphase'
    have hlock : (if s.lock = some caller then none else s.lock) = some other ↔
        s.lock = some other := by
      by_cases hlock : s.lock = some caller
      · rw [if_pos hlock, hlock]
        exact iff_of_false (Option.some_ne_none _).symm fun heq => hother (Option.some.inj heq).symm
      · rw [if_neg hlock]
    refine ⟨fun hrecording => hlock.2 (hphase'.lock_eq hrecording),
      fun hsome => hphase'.holder (hlock.1 hsome), hphase'.current, ?_⟩
    dsimp only
    rw [servedTo_concat_of_ne hother]
    exact hphase'.delivered

/-- Who writes is the only one who has read. -/
theorem Sound.eq_of_loaded (h : s.Sound start) {other : κ} {ins ins' : Instruction}
    {known known' : Option (List Instruction)} (hphase : s.phase caller = .loaded ins known)
    (hother : s.phase other = .loaded ins' known') : other = caller := by
  have hlock := (h.phases caller).lock_eq (hphase ▸ rfl)
  rw [(h.phases other).lock_eq (hother ▸ rfl)] at hlock
  exact Option.some.inj hlock

/-- Whatever the phase of a caller, its next move keeps the store sound. -/
theorem Sound.advance (h : s.Sound start) (caller : κ) : (s.advance caller).Sound start := by
  have hlookup : ∀ other ≠ caller, ∀ ins known, s.phase other = .loaded ins known →
      s.disk.load ins.address = .ok known :=
    fun other _ => (h.phases other).current
  unfold Service.advance
  cases hphase : s.phase caller with
  | idle => exact h
  | called call =>
    have hbefore : (s.phase caller).pending caller = [] := hphase ▸ rfl
    cases call with
    | record ins =>
      dsimp only
      by_cases hlock : s.lock = none
      · rw [if_pos hlock]
        refine h.enter hbefore rfl (.inr ⟨hlock, rfl⟩) (iff_of_true rfl rfl) ?_
        intro ins' known heq
        cases heq
      · rw [if_neg hlock]
        exact h
    | resolve address mutation => exact h.settle hbefore rfl hlookup
    | mutationCount address => exact h.settle hbefore rfl hlookup
    | addressCount => exact h.settle hbefore rfl hlookup
  | locked ins =>
    have hbefore : (s.phase caller).pending caller = [] := hphase ▸ rfl
    dsimp only
    cases hload : s.disk.load ins.address with
    | error failure =>
      refine h.settle hbefore ?_ hlookup
      unfold Store.answer Store.record
      dsimp only
      rw [DiskStore.record_eq, hload]
      rfl
    | ok known =>
      have hlock := (h.phases caller).lock_eq (hphase ▸ rfl)
      refine h.enter hbefore rfl (.inl rfl) (iff_of_true rfl hlock) ?_
      intro ins' known' heq
      cases heq
      exact hload
  | loaded ins known =>
    refine h.settle (hphase ▸ rfl) ?_ ?_
    · unfold Store.answer Store.record
      dsimp only
      rw [DiskStore.record_eq, (h.phases caller).current ins known hphase]
      rfl
    · -- nobody else has read anything that this write could make out of date
      intro other hother ins' known' hloaded
      exact absurd (h.eq_of_loaded hphase hloaded) hother
  | answered call answer => exact h.return hphase

/-- Every turn keeps the store sound. -/
theorem Sound.step (h : s.Sound start) (turn : Turn κ) : (s.step turn).Sound start := by
  cases turn with
  | call caller call =>
    unfold Service.step
    dsimp only
    split
    next hphase =>
      have hbefore : (s.phase caller).pending caller = [] := hphase ▸ rfl
      refine h.enter hbefore rfl (.inl rfl) ?_ ?_
      · refine iff_of_false Bool.false_ne_true ?_
        -- the holder of the lock has a call, so a caller without one is not the holder
        intro hlock
        rcases (h.phases caller).holder hlock with hrecording | ⟨_, _, hanswered⟩
        · rw [hphase] at hrecording
          exact Bool.false_ne_true hrecording
        · rw [hphase] at hanswered
          cases hanswered
      · intro ins known heq
        cases heq
    next => exact h
  | advance caller => exact h.advance caller
  | reopen =>
    refine ⟨h.sequential, ?_⟩
    intro caller
    refine inPhase_idle (Option.some_ne_none _).symm ?_
    exact (List.sublist_append_left ..).trans (h.phases caller).delivered

/-- Turns in any order keep the store sound. -/
theorem Sound.run (h : s.Sound start) (turns : List (Turn κ)) : (s.run turns).Sound start := by
  induction turns generalizing s with
  | nil => exact h
  | cons turn turns ih => exact ih (h.step turn)

/-! ## No call is stuck -/

/-- A caller has gone on with its call until it returned, and has given the lock back. -/
structure Finished (s s' : Service κ) (caller : κ) (call : StoreCall) : Prop where
  turns : ∃ n, s' = s.run (List.replicate n (.advance caller))
  returned : ∃ answer, s'.returned = s.returned ++ [⟨caller, call, answer⟩]
  lock : s.lock = some caller → s'.lock = none
  others : ∀ other ≠ caller, s'.phase other = s.phase other

/-- A step on the way to the end of a call. -/
theorem Finished.advance {s s' s'' : Service κ} {call : StoreCall} (h : Finished s' s'' caller call)
    (hadvance : s.advance caller = s') (hreturned : s'.returned = s.returned)
    (hlock : s.lock = some caller → s'.lock = some caller)
    (hothers : ∀ other ≠ caller, s'.phase other = s.phase other) :
    Finished s s'' caller call where
  turns := by
    obtain ⟨n, hrun⟩ := h.turns
    refine ⟨n + 1, ?_⟩
    rw [hrun, ← hadvance]
    rfl
  returned := hreturned ▸ h.returned
  lock hsome := h.lock (hlock hsome)
  others other hother := (h.others other hother).trans (hothers other hother)

/-- A call that took effect returns with the next move. -/
theorem finished_of_answered {call : StoreCall} {answer : StoreAnswer}
    (hphase : s.phase caller = .answered call answer) :
    Finished s (s.advance caller) caller call := by
  refine ⟨⟨1, rfl⟩, ⟨answer, ?_⟩, ?_, ?_⟩
  · unfold Service.advance
    rw [hphase]
  · intro hlock
    unfold Service.advance
    rw [hphase]
    exact if_pos hlock
  · intro other hother
    unfold Service.advance
    rw [hphase]
    exact Function.update_of_ne hother ..

/-- A call that takes effect next returns after that. -/
theorem exists_finished_of_settle {call : StoreCall}
    (hadvance : ∃ answer disk, s.advance caller = s.settle caller call answer disk) :
    ∃ s', Finished s s' caller call := by
  obtain ⟨answer, disk, hadvance⟩ := hadvance
  have hphase : (s.settle caller call answer disk).phase caller = .answered call answer :=
    Function.update_self ..
  exact ⟨_, (finished_of_answered hphase).advance hadvance rfl id
    fun other hother => Function.update_of_ne hother ..⟩

/-- A record that has read its value writes and returns. -/
theorem exists_finished_of_loaded {ins : Instruction} {known : Option (List Instruction)}
    (hphase : s.phase caller = .loaded ins known) : ∃ s', Finished s s' caller (.record ins) := by
  apply exists_finished_of_settle
  unfold Service.advance
  rw [hphase]
  exact ⟨_, _, rfl⟩

/-- A record that has the lock reads its value, and fails or goes on. -/
theorem exists_finished_of_locked {ins : Instruction} (hphase : s.phase caller = .locked ins) :
    ∃ s', Finished s s' caller (.record ins) := by
  cases hload : s.disk.load ins.address with
  | error failure =>
    apply exists_finished_of_settle
    unfold Service.advance
    rw [hphase]
    dsimp only
    rw [hload]
    exact ⟨_, _, rfl⟩
  | ok known =>
    have hadvance : s.advance caller =
        { s with phase := Function.update s.phase caller (.loaded ins known) } := by
      unfold Service.advance
      rw [hphase]
      dsimp only
      rw [hload]
    have hloaded : (s.advance caller).phase caller = .loaded ins known := by
      rw [hadvance]
      exact Function.update_self ..
    obtain ⟨s', hfinished⟩ := exists_finished_of_loaded hloaded
    refine ⟨s', hfinished.advance rfl ?_ ?_ ?_⟩
    · rw [hadvance]
    · rw [hadvance]
      exact id
    · intro other hother
      rw [hadvance]
      exact Function.update_of_ne hother ..

/-- A caller that does not have to wait for the lock gets its answer. -/
theorem exists_finished_of_free {call : StoreCall} (hcall : (s.phase caller).call? = some call)
    (hfree : s.lock = none ∨ s.phase caller ≠ .called call) :
    ∃ s', Finished s s' caller call := by
  cases hphase : s.phase caller with
  | idle =>
    rw [hphase] at hcall
    cases hcall
  | called made =>
    rw [hphase] at hcall hfree
    cases hcall
    have hlock : s.lock = none := hfree.resolve_right fun hne => hne rfl
    cases call with
    | record ins =>
      have hadvance : s.advance caller =
          { s with lock := some caller, phase := Function.update s.phase caller (.locked ins) } := by
        unfold Service.advance
        rw [hphase]
        exact if_pos hlock
      have hlocked : (s.advance caller).phase caller = .locked ins := by
        rw [hadvance]
        exact Function.update_self ..
      obtain ⟨s', hfinished⟩ := exists_finished_of_locked hlocked
      refine ⟨s', hfinished.advance rfl ?_ ?_ ?_⟩
      · rw [hadvance]
      · rw [hadvance]
        exact fun _ => rfl
      · intro other hother
        rw [hadvance]
        exact Function.update_of_ne hother ..
    | resolve address mutation =>
      apply exists_finished_of_settle
      unfold Service.advance
      rw [hphase]
      exact ⟨_, _, rfl⟩
    | mutationCount address =>
      apply exists_finished_of_settle
      unfold Service.advance
      rw [hphase]
      exact ⟨_, _, rfl⟩
    | addressCount =>
      apply exists_finished_of_settle
      unfold Service.advance
      rw [hphase]
      exact ⟨_, _, rfl⟩
  | locked ins =>
    rw [hphase] at hcall
    cases hcall
    exact exists_finished_of_locked hphase
  | loaded ins known =>
    rw [hphase] at hcall
    cases hcall
    exact exists_finished_of_loaded hphase
  | answered made answer =>
    rw [hphase] at hcall
    cases hcall
    exact ⟨_, finished_of_answered hphase⟩

/-- Who has the lock is not waiting for it. -/
theorem Sound.call_of_holder (h : s.Sound start) (hlock : s.lock = some caller) :
    ∃ call, (s.phase caller).call? = some call ∧ s.phase caller ≠ .called call := by
  rcases (h.phases caller).holder hlock with hrecording | ⟨call, answer, hphase⟩
  · cases hphase : s.phase caller with
    | locked ins => exact ⟨.record ins, rfl, CallPhase.noConfusion⟩
    | loaded ins known => exact ⟨.record ins, rfl, CallPhase.noConfusion⟩
    | _ =>
      rw [hphase] at hrecording
      exact absurd hrecording Bool.false_ne_true
  · rw [hphase]
    exact ⟨call, rfl, CallPhase.noConfusion⟩

theorem run_append (s : Service κ) (turns more : List (Turn κ)) :
    s.run (turns ++ more) = (s.run turns).run more := List.foldl_append

theorem Finished.exists_turns {s s' : Service κ} {call : StoreCall}
    (h : Finished s s' caller call) :
    ∃ turns, s' = s.run turns ∧ ∀ turn ∈ turns, ∃ other, turn = .advance other := by
  obtain ⟨n, hrun⟩ := h.turns
  exact ⟨_, hrun, fun turn hturn => ⟨caller, List.eq_of_mem_replicate hturn⟩⟩

/-- A call that is under way can go on until it returns; if someone else has the lock that it waits
for, that caller goes first. -/
theorem Sound.exists_returned (h : s.Sound start) {call : StoreCall}
    (hcall : (s.phase caller).call? = some call) :
    ∃ turns answer, (∀ turn ∈ turns, ∃ other, turn = .advance other) ∧
      (s.run turns).returned.getLast? = some ⟨caller, call, answer⟩ := by
  by_cases hfree : s.lock = none ∨ s.phase caller ≠ .called call
  · obtain ⟨s', hfinished⟩ := exists_finished_of_free hcall hfree
    obtain ⟨turns, rfl, hturns⟩ := hfinished.exists_turns
    obtain ⟨answer, hreturned⟩ := hfinished.returned
    exact ⟨turns, answer, hturns, hreturned ▸ List.getLast?_concat⟩
  · rw [not_or, not_not] at hfree
    obtain ⟨hlock, hwaits⟩ := hfree
    obtain ⟨other, hother⟩ := Option.ne_none_iff_exists'.1 hlock
    obtain ⟨made, hmade, hholds⟩ := h.call_of_holder hother
    have hne : caller ≠ other := by
      rintro rfl
      rw [hwaits] at hmade
      cases hmade
      exact hholds hwaits
    -- the holder first, then the caller, which waits in the same phase all the while
    obtain ⟨s₁, hfirst⟩ := exists_finished_of_free hmade (.inr hholds)
    have hcall₁ : (s₁.phase caller).call? = some call := by
      rw [hfirst.others caller hne, hcall]
    obtain ⟨s₂, hsecond⟩ := exists_finished_of_free hcall₁ (.inl (hfirst.lock hother))
    obtain ⟨turns, rfl, hturns⟩ := hfirst.exists_turns
    obtain ⟨more, rfl, hmore⟩ := hsecond.exists_turns
    obtain ⟨answer, hreturned⟩ := hsecond.returned
    refine ⟨turns ++ more, answer, ?_, ?_⟩
    · intro turn hturn
      exact (List.mem_append.1 hturn).elim (hturns turn) (hmore turn)
    · rw [run_append, hreturned, List.getLast?_concat]

/-! ## The answers of a store with several callers -/

/-- What took effect stays where it is in the log. -/
theorem log_step (s : Service κ) (turn : Turn κ) : s.log <+: (s.step turn).log := by
  cases turn with
  | call caller call =>
    unfold step
    dsimp only
    split <;> exact List.prefix_rfl
  | advance caller =>
    unfold step Service.advance
    dsimp only
    -- a turn appends the call that it settles, or nothing
    split
    next => exact List.prefix_rfl
    next => split <;> exact List.prefix_rfl
    next => exact List.prefix_append ..
    next => exact List.prefix_append ..
    next => exact List.prefix_append ..
    next =>
      split
      next => exact List.prefix_append ..
      next => exact List.prefix_rfl
    next => exact List.prefix_append ..
    next => exact List.prefix_rfl
  | reopen => exact List.prefix_rfl

theorem log_run (s : Service κ) (turns : List (Turn κ)) : s.log <+: (s.run turns).log := by
  induction turns generalizing s with
  | nil => exact List.prefix_rfl
  | cons turn turns ih => exact (log_step s turn).trans (ih (s.step turn))

/-- The two kinds of stores answer every sequence of calls alike and faithfully. So does a disk
store whose callers interleave in any way and which is opened again at any time: the calls that took
effect have, in the order of their effects, the answers of the store in memory, what returns to a
caller are its answers in this order, what happens later leaves them as they are, and every call can
go on until it returns. -/
theorem answers_as_memory :
    (∀ calls, Recordable calls →
      (Store.run calls StoreKind.disk.empty).1 = (Store.run calls StoreKind.memory.empty).1 ∧
      Faithful calls (Store.run calls StoreKind.memory.empty).1) ∧
    ∀ (turns : List (Turn κ)) (s : Service κ), s = Service.run turns { disk := .empty } →
      Recordable (s.log.map (·.call)) →
      s.log.map (·.answer) = (Store.run (s.log.map (·.call)) StoreKind.memory.empty).1 ∧
      Faithful (s.log.map (·.call)) (s.log.map (·.answer)) ∧
      (∀ caller, (servedTo caller s.returned).Sublist (servedTo caller s.log)) ∧
      (∀ more, s.log <+: (s.run more).log) ∧
      ∀ caller call, (s.phase caller).call? = some call →
        ∃ more answer, (∀ turn ∈ more, ∃ other, turn = .advance other) ∧
          (s.run more).returned.getLast? = some ⟨caller, call, answer⟩ := by
  have hfaithful : ∀ calls, Recordable calls →
      (Store.run calls StoreKind.disk.empty).1 = (Store.run calls StoreKind.memory.empty).1 ∧
      Faithful calls (Store.run calls StoreKind.memory.empty).1 := by
    intro calls hcalls
    rw [hcalls.run_empty .disk, hcalls.run_empty .memory]
    exact ⟨rfl, hcalls.faithful⟩
  refine ⟨hfaithful, ?_⟩
  intro turns s hs hcalls
  obtain ⟨hsame, hanswers⟩ := hfaithful _ hcalls
  have hsound : s.Sound .empty := hs ▸ (sound_opened .empty).run turns
  have hlog : s.log.map (·.answer) =
      (Store.run (s.log.map (·.call)) StoreKind.memory.empty).1 := by
    rw [← hsame]
    exact (congrArg Prod.fst hsound.sequential).symm
  refine ⟨hlog, hlog ▸ hanswers, ?_, s.log_run, fun _ _ => hsound.exists_returned⟩
  intro caller
  exact (List.sublist_append_left ..).trans (hsound.phases caller).delivered

/-- Two callers record at one address. The store is opened again while the second of them is about
to write, so that it has to make its record anew. -/
def twoCallers : List (Turn Bool) :=
  [.call false (.record (.decoded 0x10 "mov" "eax, 1" 5)),
    .call true (.record (.decoded 0x10 "jnz" "0x20" 2)),
    .advance false, .advance true, .advance false, .advance false, .advance true, .advance false,
    .advance true, .advance true, .reopen,
    .call true (.record (.decoded 0x10 "jnz" "0x20" 2)),
    .advance true, .advance true, .advance true, .advance true,
    .call false (.resolve 0x10 1), .advance false, .advance false]

/-- Two callers, one of which is cut off and makes its call again. -/
theorem answers_as_memory_twoCallers :
    (run twoCallers { disk := .empty }).returned.map (·.answer) =
      [.recorded (.ok (.decoded 0x10 "mov" "eax, 1" 5)),
        .recorded (.ok { Instruction.decoded 0x10 "jnz" "0x20" 2 with mutation := 1 }),
        .resolved (.ok (some { Instruction.decoded 0x10 "jnz" "0x20" 2 with mutation := 1 }))] ∧
    Faithful ((run twoCallers { disk := .empty }).log.map (·.call))
      ((run twoCallers { disk := .empty }).log.map (·.answer)) ∧
    Faithful [.record default, .addressCount]
      (Store.run [.record default, .addressCount] StoreKind.memory.empty).1 :=
  ⟨rfl, (answers_as_memory.2 twoCallers _ rfl (by decide)).2.1,
    ((@answers_as_memory Bool _).1 [.record default, .addressCount] (by decide)).2⟩

end Service

end TraceGraph
