import TraceGraph.Proofs.Builder
import TraceGraph.Proofs.Record.Stream

/-!
# The counter of calls

How often an external node was called is counted in three places: a captured call adds to
the counter unless it is the first, a recount takes the number of captured calls, and a node
that is read back gets the counter that its calls stand for, since the counter itself is not
written. If they disagreed, one could tell from the counter when a graph was last saved.

They agree. All three keep a node of the form

> `Node.called`: these calls were captured, the counter is the one that belongs to them, and
> nothing
> else has happened.

The step lemmas are `pushCall_called`, `recountCalls_called` and `scan?_encode_called`; the
last one needs that the lists are short enough to be written, which `Writable` demands at
every moment at which the node is written. From them the run lemma follows by induction from
the end of the steps (`CallStep.runAll?_external`): after any steps the node is `called`
with the calls that were pushed. Leaving out the rereads leaves out no call, so no one can
tell whether the node was written and read back in between.

The main result is `CallStep.calls_survive`. It also says that an internal node keeps no
calls: a call is answered with `false` and changes nothing.
-/

namespace TraceGraph

namespace Node

/-- The external node for which these calls were captured, and to which nothing else happened. -/
def called (index : UInt32) (position : Position) (address : UInt64) (calls : List Arguments) :
    Node where
  index
  position
  address
  kind := .external calls
  runtime := { calls := callCount calls }

variable {index : UInt32} {position : Position} {address : UInt64} {calls : List Arguments}

/-- From the second call on, one more call is one more in the counter. -/
theorem callCount_concat_of_ne_nil (h : calls ≠ []) (arguments : Arguments) :
    callCount (calls ++ [arguments]) = callCount calls + 1 := by
  have hlength : 1 ≤ calls.length := List.length_pos_iff.2 h
  unfold callCount
  rw [List.length_append, List.length_singleton, Nat.max_eq_right hlength,
    Nat.max_eq_right (Nat.le_add_left 1 _), UInt64.ofNat_add]
  rfl

/-- A call of an external node is kept, and counted unless it is the first. -/
theorem pushCall_called (arguments : Arguments) :
    (called index position address calls).pushCall arguments =
      (true, called index position address (calls ++ [arguments])) := by
  cases calls with
  | nil => rfl
  | cons first calls =>
    have hcount := callCount_concat_of_ne_nil (List.cons_ne_nil first calls) arguments
    unfold called
    rw [hcount]
    rfl

/-- A recount finds the counter as it should be. -/
theorem recountCalls_called :
    (called index position address calls).recountCalls = called index position address calls := rfl

/-- A node without neighbours can be written as soon as its calls can. -/
theorem scan?_encode_called (lookup : Lookup) (hcalls : calls.length < UInt32.size)
    (harguments : ∀ arguments ∈ calls, arguments.length < UInt32.size) (behind : Bytes) :
    scan? lookup { rest := (called index position address calls).encode ++ behind } =
      (.ok (some (called index position address calls)),
        ⟨behind, .complete, 0 + (called index position address calls).encode.length⟩) := by
  have hcountable : (called index position address calls).toRecord.Countable :=
    ⟨Nat.zero_lt_succ _, Nat.zero_lt_succ _, hcalls, harguments⟩
  have hwell : (called index position address calls).WellFormed lookup :=
    .of_external rfl hcountable
  have hscan := scan?_encode_append hwell behind .complete 0
  rw [reread_eq] at hscan
  exact hscan

/-- The calls of an internal node are neither captured nor counted. -/
theorem calls_of_internal {node : Node} {block : Block} (h : node.kind = .internal block)
    (arguments : Arguments) :
    node.pushCall arguments = (false, node) ∧ node.recountCalls = node := by
  refine ⟨?_, ?_⟩
  · unfold pushCall
    rw [h]
  · unfold recountCalls
    rw [h]

end Node

/-- What can happen to the calls of a node. -/
inductive CallStep where
  | push (arguments : Arguments)
  | recount
  /-- The node is written, and read back from a stream with more bytes behind its text. -/
  | reread (lookup : Lookup) (behind : Bytes)

namespace CallStep

def isReread : CallStep → Bool
  | reread _ _ => true
  | _ => false

/-- The node after a step, `none` if it could not be read back. -/
def run? : CallStep → Node → Option Node
  | push arguments, node => some (node.pushCall arguments).2
  | recount, node => some node.recountCalls
  | reread lookup behind, node =>
    match Node.scan? lookup { rest := node.encode ++ behind } with
    | (.ok found, _) => found
    | (.error _, _) => none

/-- The node after steps in order. -/
def runAll? (steps : List CallStep) (node : Node) : Option Node :=
  steps.foldlM (fun node step => step.run? node) node

/-- The argument lists that are pushed, in order. -/
def pushed (steps : List CallStep) : List Arguments :=
  steps.filterMap fun
    | push arguments => some arguments
    | _ => none

/-- Whenever the node is written, its lists are short enough for the counts in front of them. -/
def Writable (steps : List CallStep) : Prop :=
  ∀ before lookup behind, before ++ [reread lookup behind] <+: steps →
    (pushed before).length < UInt32.size ∧
      ∀ arguments ∈ pushed before, arguments.length < UInt32.size

variable {steps : List CallStep} {index : UInt32} {position : Position} {address : UInt64}

/-- The calls of steps in two parts are pushed one part after the other. -/
theorem pushed_append (steps more : List CallStep) :
    pushed (steps ++ more) = pushed steps ++ pushed more := List.filterMap_append

/-- What can be written throughout can be written up to any moment. -/
theorem Writable.before {before : List CallStep} (h : Writable steps) (hbefore : before <+: steps) :
    Writable before :=
  fun first lookup behind hfirst => h first lookup behind (hfirst.trans hbefore)

/-- Lists that are short in the end were short before. -/
theorem writable_of_pushed (hpushed : (pushed steps).length < UInt32.size)
    (harguments : ∀ arguments ∈ pushed steps, arguments.length < UInt32.size) : Writable steps := by
  intro before lookup behind hbefore
  obtain ⟨after, rfl⟩ := hbefore
  rw [pushed_append, pushed_append] at hpushed harguments
  rw [List.length_append, List.length_append] at hpushed
  refine ⟨by omega, fun arguments hmem => harguments arguments ?_⟩
  exact List.mem_append_left _ (List.mem_append_left _ hmem)

/-- Dropping the rereads drops no call. -/
theorem pushed_filter_isReread (steps : List CallStep) :
    pushed (steps.filter fun step => !step.isReread) = pushed steps := by
  induction steps with
  | nil => rfl
  | cons step steps ih =>
    cases step with
    | push arguments => exact congrArg (arguments :: ·) ih
    | recount => exact ih
    | reread lookup behind => exact ih

/-- Without rereads nothing is written, so nothing is too long. -/
theorem writable_filter_isReread (steps : List CallStep) :
    Writable (steps.filter fun step => !step.isReread) := by
  intro before lookup behind hbefore
  have hmem := hbefore.subset (List.mem_append_right before (List.mem_singleton_self _))
  exact absurd (List.mem_filter.1 hmem).2 Bool.false_ne_true

/-- After any steps a node that was made external has the calls that were pushed, and the counter
that belongs to them. -/
theorem runAll?_external (h : Writable steps) :
    runAll? steps (.external index position address) =
      some (.called index position address (pushed steps)) := by
  -- from the end, since a reread is possible because of the steps in front of it
  induction steps using List.reverseRecOn with
  | nil => rfl
  | append_singleton steps step ih =>
    have hstep : runAll? (steps ++ [step]) (.external index position address) =
        step.run? (.called index position address (pushed steps)) := by
      unfold runAll? at ih ⊢
      rw [List.foldlM_append, ih (h.before (List.prefix_append _ _))]
      exact Option.bind_fun_some _
    rw [hstep, pushed_append]
    cases step with
    | push arguments =>
      exact congrArg (fun result => some result.2) (Node.pushCall_called arguments)
    | recount =>
      rw [show pushed [recount] = [] from rfl, List.append_nil]
      rfl
    | reread lookup behind =>
      obtain ⟨hcalls, harguments⟩ := h steps lookup behind (List.prefix_refl _)
      rw [show pushed [reread lookup behind] = [] from rfl, List.append_nil]
      simp only [run?, Node.scan?_encode_called lookup hcalls harguments behind]

/-- Without the rereads the same node comes out. -/
theorem runAll?_filter_isReread (steps : List CallStep) :
    runAll? (steps.filter fun step => !step.isReread) (.external index position address) =
      some (.called index position address (pushed steps)) := by
  rw [← pushed_filter_isReread]
  exact runAll?_external (writable_filter_isReread steps)

/-- At every moment an external node has the calls that were pushed so far, in order, and a
counter of one or their number, whichever is more. So a recount changes nothing, and the node is
the one that it would be if it had never been written and read back. Of an internal node no calls
are kept. -/
theorem calls_survive (index : UInt32) (position : Position) (address : UInt64)
    {steps : List CallStep} (h : Writable steps) :
    (∀ k, ∃ node : Node,
      runAll? (steps.take k) (.external index position address) = some node ∧
      node.kind = .external (pushed (steps.take k)) ∧
      node.runtime.calls = .ofNat (max 1 (pushed (steps.take k)).length) ∧
      ((pushed (steps.take k)).length < UInt64.size →
        node.runtime.calls.toNat = max 1 (pushed (steps.take k)).length) ∧
      node.recountCalls = node ∧
      runAll? ((steps.take k).filter fun step => !step.isReread)
        (.external index position address) = some node) ∧
    ∀ (node : Node) (block : Block), node.kind = .internal block → ∀ arguments,
      node.pushCall arguments = (false, node) ∧ node.recountCalls = node := by
  refine ⟨?_, fun node block hkind arguments => Node.calls_of_internal hkind arguments⟩
  intro k
  have htake : steps.take k <+: steps := List.take_prefix k steps
  refine ⟨_, runAll?_external (h.before htake), rfl, rfl, ?_, Node.recountCalls_called,
    runAll?_filter_isReread (steps.take k)⟩
  intro hlength
  exact UInt64.toNat_ofNat_of_lt' (Nat.max_lt.2 ⟨by decide, hlength⟩)

/-- A node is read back before its first call is captured, and again after it. -/
theorem calls_survive_early :
    let lookup := Lookup.failing "unreadable"
    let steps : List CallStep := [.reread lookup [], .push [], .reread lookup [closer], .recount,
      .push [(-3, [comma, 255])], .reread lookup endMarker]
    Writable steps ∧ ∃ node : Node,
      runAll? steps (.external 9 {} 30464) = some node ∧
      node.kind = .external [[], [(-3, [comma, 255])]] ∧ node.runtime.calls = 2 := by
  intro lookup steps
  have h : Writable steps := writable_of_pushed (by decide) (by decide)
  obtain ⟨node, hrun, hkind, hcalls, -⟩ := (calls_survive 9 {} 30464 h).1 steps.length
  rw [List.take_length] at hrun hkind hcalls
  exact ⟨h, node, hrun, hkind, hcalls⟩

end CallStep

end TraceGraph
