import TraceGraph.Proofs.FileTree.Frame

/-!
# Paths that differ in their ends

The files of a trace have the trace as the first part of their names and differ in what is
put behind it. This module shows that such files never get in each other's way, whatever the
trace and the directory are called.

Texts behind the same beginning, none of them with a slash in it, are ends of the last name
and of nothing else (`splitSlashes_append`, `names_append`). An end of more than two
characters moreover keeps the name from being empty, a dot or two dots (`ne_dots_of_isEnd`),
so that the last step of the walk goes down into a directory and not elsewhere:

> `walk_concat_eq_ok_iff`: the walk along the names before it ends in a directory, and the
> name
> itself is added to its place.

The names before the last are the same for both paths and are followed alike, so two such
paths lead to different places of one directory (`Path.apart_of_ne`). In the other
direction, room for the longer of two ends is room for the shorter one
(`exists_resolve_of_append`): this is how a file beside a place vouches for the place
itself.
-/

namespace TraceGraph

namespace Path

/-- A text without a slash is one name. -/
theorem splitSlashes_of_not_mem {cs : List Char} (h : '/' ∉ cs) : splitSlashes cs = [cs] := by
  induction cs with
  | nil => rfl
  | cons c cs ih =>
    rw [List.mem_cons, not_or] at h
    unfold splitSlashes
    rw [if_neg (Ne.symm h.1), ih h.2]

/-- What is put behind a text without a slash in it belongs to the last name. -/
theorem splitSlashes_append (cs : List Char) :
    ∃ init last, ∀ ds, '/' ∉ ds → splitSlashes (cs ++ ds) = init ++ [last ++ ds] := by
  induction cs with
  | nil => exact ⟨[], [], fun ds hds => splitSlashes_of_not_mem hds⟩
  | cons c cs ih =>
    obtain ⟨init, last, ih⟩ := ih
    by_cases hc : c = '/'
    · refine ⟨[] :: init, last, ?_⟩
      intro ds hds
      rw [List.cons_append, splitSlashes, if_pos hc, ih ds hds, List.cons_append]
    · cases init with
      | nil =>
        refine ⟨[], c :: last, ?_⟩
        intro ds hds
        rw [List.cons_append, splitSlashes, if_neg hc, ih ds hds]
        rfl
      | cons name init =>
        refine ⟨(c :: name) :: init, last, ?_⟩
        intro ds hds
        rw [List.cons_append, splitSlashes, if_neg hc, ih ds hds]
        rfl

/-- The end of a name that cannot be mistaken for anything else: it holds no slash, and it is too
long to be a dot or two. -/
def IsEnd (text : String) : Prop := '/' ∉ text.toList ∧ 2 < text.toList.length

instance (text : String) : Decidable (IsEnd text) :=
  inferInstanceAs (Decidable ('/' ∉ text.toList ∧ 2 < text.toList.length))

/-- Under an end that cannot be mistaken only the last name of a path changes. -/
theorem names_append (text : String) :
    ∃ init last, ∀ ending, IsEnd ending →
      names ⟨text ++ ending⟩ = init ++ [String.ofList (last ++ ending.toList)] := by
  obtain ⟨init, last, h⟩ := splitSlashes_append text.toList
  refine ⟨init.map String.ofList, last, ?_⟩
  intro ending hending
  unfold names
  rw [String.toList_append, h _ hending.1, List.map_append]
  rfl

/-- Whether a path is absolute is decided by its first character, which no end supplies. -/
theorem isAbsolute_append {text ending : String} (h : IsEnd ending) :
    isAbsolute ⟨text ++ ending⟩ = isAbsolute ⟨text⟩ := by
  unfold isAbsolute
  rw [String.toList_append]
  cases ht : text.toList with
  | cons c cs => rfl
  | nil =>
    cases he : ending.toList with
    | nil => rfl
    | cons c cs =>
      -- the text is empty and the end starts with no slash, so neither path is absolute
      have hc : c ≠ '/' := by
        intro heq
        subst heq
        refine h.1 ?_
        rw [he]
        exact List.mem_cons_self ..
      refine decide_eq_decide.2 ⟨?_, nofun⟩
      intro heq
      exact absurd (Option.some.inj heq) hc

/-- A path with such an end names a file, never a directory by its slash. -/
theorem endsInSlash_append {text ending : String} (h : IsEnd ending) :
    endsInSlash ⟨text ++ ending⟩ = false := by
  unfold endsInSlash
  refine decide_eq_false ?_
  intro hlast
  rw [String.toList_append, List.getLast?_append] at hlast
  cases he : ending.toList.getLast? with
  | none =>
    have hlength := h.2
    rw [List.getLast?_eq_none_iff.1 he] at hlength
    exact absurd hlength (by decide)
  | some c =>
    rw [he, Option.some_or] at hlast
    obtain rfl := Option.some.inj hlast
    exact h.1 (List.mem_of_getLast? he)

/-- A name that ends so can be put behind a directory before or after its end is added. -/
theorem join_append (dir : Path) (name : String) :
    ∃ text, ∀ ending, IsEnd ending → dir.join (name ++ ending) = ⟨text ++ ending⟩ := by
  unfold join
  by_cases halone : (isAbsolute ⟨name⟩ || dir.text.isEmpty) = true
  · refine ⟨name, ?_⟩
    intro ending h
    rw [isAbsolute_append h, if_pos halone]
  · by_cases hslash : dir.endsInSlash = true
    · refine ⟨dir.text ++ name, ?_⟩
      intro ending h
      rw [isAbsolute_append h, if_neg halone, if_pos hslash, String.append_assoc]
    · refine ⟨dir.text ++ "/" ++ name, ?_⟩
      intro ending h
      rw [isAbsolute_append h, if_neg halone, if_neg hslash, ← String.append_assoc]

end Path

namespace FileTree

variable {t : FileTree}

/-- The last name of a walk is added to the place of the directory where the walk before it ends. -/
theorem walk_concat_eq_ok_iff {names : List String} {name : String} {place q : Place}
    (hname : ¬(name = "" ∨ name = ".") ∧ name ≠ "..") :
    t.walk place (names ++ [name]) = .ok q ↔
      ∃ dir, t.walk place names = .ok dir ∧ t.lookup? dir = some .directory ∧
        ¬maxName < (Utf8.encode name).length ∧ q = dir ++ [name] := by
  -- the names before the last are walked alike on both sides; only the last one is looked
  -- at
  induction names generalizing place with
  | nil =>
    rw [List.nil_append, walk_cons_eq_ok_iff]
    refine ⟨?_, ?_⟩
    · intro h
      obtain ⟨hdir, next, hleads, hend⟩ := h
      obtain rfl : next = q := Except.ok.inj hend
      cases hleads with
      | here hhere => exact absurd hhere hname.1
      | up => exact absurd rfl hname.2
      | down hplain hup hshort => exact ⟨place, rfl, hdir, hshort, rfl⟩
    · intro h
      obtain ⟨dir, hwalk, hdir, hshort, rfl⟩ := h
      obtain rfl : place = dir := Except.ok.inj hwalk
      exact ⟨hdir, _, .down hname.1 hname.2 hshort, rfl⟩
  | cons first names ih =>
    rw [List.cons_append, walk_cons_eq_ok_iff]
    refine ⟨?_, ?_⟩
    · intro h
      obtain ⟨hfirst, next, hleads, hrest⟩ := h
      obtain ⟨dir, hwalk, hdir⟩ := ih.1 hrest
      exact ⟨dir, walk_cons_eq_ok_iff.2 ⟨hfirst, next, hleads, hwalk⟩, hdir⟩
    · intro h
      obtain ⟨dir, hwalk, hdir⟩ := h
      obtain ⟨hfirst, next, hleads, hrest⟩ := walk_cons_eq_ok_iff.1 hwalk
      exact ⟨hfirst, next, hleads, ih.2 ⟨dir, hrest, hdir⟩⟩

/-- What the system refuses before it follows a path: a null character, no text, too much
text. -/
theorem check_eq_ok_iff {p : Path} :
    check p = .ok () ↔
      '\x00' ∉ p.text.toList ∧ p.text.isEmpty = false ∧ (Utf8.encode p.text).length < maxPath := by
  unfold check
  by_cases hnul : '\x00' ∈ p.text.toList
  · simp [hnul]
  · by_cases hempty : p.text.isEmpty = true
    · simp [hnul, hempty]
    · by_cases hlong : maxPath ≤ (Utf8.encode p.text).length
      · simp [hnul, hempty, hlong]
      · simp [hnul, hempty, hlong, Nat.lt_of_not_le hlong]

/-- A path leads somewhere if its text is accepted and the walk along its names arrives. -/
theorem resolve_eq_ok_iff {p : Path} {q : Place} :
    t.resolve p = .ok q ↔ check p = .ok () ∧ t.walk (t.start p) p.names = .ok q := by
  unfold resolve
  cases hc : check p with
  | error e => exact ⟨nofun, nofun⟩
  | ok _ => exact ⟨fun h => ⟨rfl, h⟩, fun h => h.2⟩

end FileTree

namespace Path

/-- A name with such an end stands for an entry of a directory: it is long enough not to be
special. -/
theorem ne_dots_of_isEnd {ending : String} (h : IsEnd ending) (last : List Char) :
    let name := String.ofList (last ++ ending.toList)
    ¬(name = "" ∨ name = ".") ∧ name ≠ ".." := by
  intro name
  have hlength : 2 < name.toList.length := by
    have hend := h.2
    rw [String.toList_ofList, List.length_append]
    omega
  refine ⟨?_, ?_⟩
  · intro hname
    rcases hname with hname | hname
    · rw [hname] at hlength
      exact absurd hlength (by decide)
    · rw [hname] at hlength
      exact absurd hlength (by decide)
  · intro hname
    rw [hname] at hlength
    exact absurd hlength (by decide)

/-- Paths that differ in their ends never lead to the same place, in any tree. -/
theorem apart_of_ne {text a b : String} (ha : IsEnd a) (hb : IsEnd b) (hne : a ≠ b) :
    Apart ⟨text ++ a⟩ ⟨text ++ b⟩ := by
  intro t place hplace hother
  obtain ⟨init, last, hnames⟩ := names_append text
  have hwalk := (FileTree.resolve_eq_ok_iff.1 hplace).2
  have hwalk' := (FileTree.resolve_eq_ok_iff.1 hother).2
  have hstart : t.start ⟨text ++ b⟩ = t.start ⟨text ++ a⟩ := by
    unfold FileTree.start
    rw [isAbsolute_append ha, isAbsolute_append hb]
  rw [hnames a ha] at hwalk
  rw [hnames b hb, hstart] at hwalk'
  obtain ⟨dir, hdir, -, -, heq⟩ :=
    (FileTree.walk_concat_eq_ok_iff (ne_dots_of_isEnd ha last)).1 hwalk
  obtain ⟨dir', hdir', -, -, heq'⟩ :=
    (FileTree.walk_concat_eq_ok_iff (ne_dots_of_isEnd hb last)).1 hwalk'
  rw [hdir] at hdir'
  cases hdir'
  -- both places are in one directory, so the ends would be the same
  have hlast := List.singleton_inj.1 (List.append_cancel_left (heq.symm.trans heq'))
  have htext := String.ofList_injective hlast
  exact hne (String.toList_injective (List.append_cancel_left htext))

/-- A longer text takes at least as many bytes, which is what the limits count. -/
theorem length_encode_append_le (a b : String) :
    (Utf8.encode a).length ≤ (Utf8.encode (a ++ b)).length := by
  unfold Utf8.encode
  rw [String.toByteArray_append]
  simp

/-- Where there is room for a longer end of the last name, there is room for a shorter one. -/
theorem exists_resolve_of_append {t : FileTree} {text ending more : String} {q : Place}
    (h : IsEnd ending) (h' : IsEnd (ending ++ more))
    (hresolve : t.resolve ⟨text ++ (ending ++ more)⟩ = .ok q) :
    ∃ q', t.resolve ⟨text ++ ending⟩ = .ok q' := by
  obtain ⟨init, last, hnames⟩ := names_append text
  obtain ⟨hcheck, hwalk⟩ := FileTree.resolve_eq_ok_iff.1 hresolve
  have hstart : t.start ⟨text ++ ending⟩ = t.start ⟨text ++ (ending ++ more)⟩ := by
    unfold FileTree.start
    rw [isAbsolute_append h, isAbsolute_append h']
  have hshorter : FileTree.check ⟨text ++ ending⟩ = .ok () := by
    obtain ⟨hnul, -, hlong⟩ := FileTree.check_eq_ok_iff.1 hcheck
    rw [← String.append_assoc] at hnul hlong
    refine FileTree.check_eq_ok_iff.2 ⟨?_, ?_, ?_⟩
    · intro hmem
      rw [String.toList_append] at hnul
      exact hnul (List.mem_append_left _ hmem)
    · rw [Bool.eq_false_iff]
      intro hempty
      have hnil := congrArg String.toList (String.isEmpty_iff.1 hempty)
      rw [String.toList_append] at hnil
      have hlength := h.2
      rw [(List.append_eq_nil_iff.1 hnil).2] at hlength
      exact absurd hlength (by decide)
    · exact Nat.lt_of_le_of_lt (length_encode_append_le _ _) hlong
  rw [hnames _ h'] at hwalk
  obtain ⟨dir, hdir, hdirectory, hshort, -⟩ :=
    (FileTree.walk_concat_eq_ok_iff (ne_dots_of_isEnd h' last)).1 hwalk
  refine ⟨dir ++ [String.ofList (last ++ ending.toList)],
    FileTree.resolve_eq_ok_iff.2 ⟨hshorter, ?_⟩⟩
  rw [hnames _ h, hstart]
  -- the directory is there for the longer name, and the shorter one is within the limit as
  -- well
  refine (FileTree.walk_concat_eq_ok_iff (ne_dots_of_isEnd h last)).2
    ⟨dir, hdir, hdirectory, ?_, rfl⟩
  have hlonger : String.ofList (last ++ (ending ++ more).toList) =
      String.ofList (last ++ ending.toList) ++ more := by
    rw [String.toList_append, ← List.append_assoc, String.ofList_append, String.ofList_toList]
  rw [hlonger] at hshort
  have hle := length_encode_append_le (String.ofList (last ++ ending.toList)) more
  omega

end Path

end TraceGraph
