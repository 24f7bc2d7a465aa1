import TraceGraph.Proofs.FileTree.Sibling

/-!
# Names in one directory

Two traces in one directory are told apart by the last names of their files. Here this is
shown for names that are put behind a directory by joining, where the directory is any text
at all: empty, with a slash at its end or without one, absolute or relative.

> `Path.exists_names_join`: the names of a joined path are those of the directory, but for
> an empty
> one at their end, and then the name itself.

So different names never lead to the same place (`apart_join`), and if one of them leads
anywhere, the others lead to places in the same directory (`exists_directory`). The places
are one thing, the reasons for finding nothing another: a path can fail because a directory
on its way is missing or is a file, and a change of the tree could in principle make it fail
for a different reason. It does not, for a change at the place of one name shows that the
directory is there (`ChangedAt.resolve_join`). Together:

> `Touched.get_join_eq`: a change through some names of a directory is not seen through any
> other
> name, neither in what is found nor in the reason why nothing is.
-/

namespace TraceGraph

namespace Path

/-- A text that stands for an entry of a directory. -/
def IsName (text : String) : Prop :=
  '/' ∉ text.toList ∧ ¬(text = "" ∨ text = ".") ∧ text ≠ ".."

/-- A name of a trace with the end of one of its files stands for an entry of a directory.
-/
theorem isName_append {name ending : String} (hname : '/' ∉ name.toList) (h : IsEnd ending) :
    IsName (name ++ ending) := by
  have hdots := ne_dots_of_isEnd h name.toList
  rw [String.ofList_append, String.ofList_toList, String.ofList_toList] at hdots
  refine ⟨?_, hdots⟩
  rw [String.toList_append, List.mem_append, not_or]
  exact ⟨hname, h.1⟩

/-- A slash separates what is before it from what is behind it, with nothing in common. -/
theorem splitSlashes_append_slash (cs ds : List Char) :
    splitSlashes (cs ++ '/' :: ds) = splitSlashes cs ++ splitSlashes ds := by
  induction cs with
  | nil => rfl
  | cons c cs ih =>
    rw [List.cons_append]
    by_cases hc : c = '/'
    · rw [splitSlashes, if_pos hc, splitSlashes, if_pos hc, ih, List.cons_append]
    · rw [splitSlashes, if_neg hc, splitSlashes, if_neg hc, ih]
      cases hcs : splitSlashes cs with
      | cons name names => rfl
      | nil =>
        obtain ⟨init, last, h⟩ := splitSlashes_append cs
        have hne := h [] List.not_mem_nil
        rw [List.append_nil, hcs] at hne
        exact absurd hne.symm (List.append_ne_nil_of_right_ne_nil _ (List.cons_ne_nil _ _))

/-- What is put in front of a name is the directory and a slash, unless the directory is empty or
ends in one. -/
theorem exists_join_eq (dir : Path) :
    (dir.text.toList = [] ∧ ∀ name, IsName name → (dir.join name).text.toList = name.toList) ∨
    ∃ cs, (dir.text.toList = cs ∧ cs ≠ [] ∨ dir.text.toList = cs ++ ['/']) ∧
      ∀ name, IsName name → (dir.join name).text.toList = cs ++ '/' :: name.toList := by
  have hrelative : ∀ name, IsName name → isAbsolute ⟨name⟩ = false := by
    intro name h
    refine decide_eq_false ?_
    intro hhead
    exact h.1 (List.mem_of_head? hhead)
  unfold join
  by_cases hempty : dir.text.isEmpty = true
  · refine .inl ⟨?_, ?_⟩
    · rw [String.isEmpty_iff.1 hempty]
      rfl
    · intro name h
      rw [hrelative name h, hempty]
      rfl
  · refine .inr ?_
    by_cases hslash : dir.endsInSlash = true
    · obtain ⟨cs, hcs⟩ := List.getLast?_eq_some_iff.1 (of_decide_eq_true hslash)
      refine ⟨cs, .inr hcs, ?_⟩
      intro name h
      rw [hrelative name h, Bool.false_or, if_neg hempty, if_pos hslash]
      rw [String.toList_append, hcs, List.append_assoc, List.singleton_append]
    · refine ⟨dir.text.toList, .inl ⟨rfl, ?_⟩, ?_⟩
      · intro hnil
        exact hempty (String.isEmpty_iff.2 (String.toList_eq_nil_iff.1 hnil))
      · intro name h
        rw [hrelative name h, Bool.false_or, if_neg hempty, if_neg hslash]
        rw [String.toList_append, String.toList_append, List.append_assoc]
        rfl

/-- The names of a path in a directory are those of the directory, but for an empty one at their
end, and then its own. -/
theorem exists_names_join (dir : Path) :
    ∃ init, (dir.names = init ∨ dir.names = init ++ [""]) ∧ ∀ name, IsName name →
      (dir.join name).names = init ++ [name] ∧ (dir.join name).isAbsolute = dir.isAbsolute := by
  have hsplit : ∀ cs ds : List Char, '/' ∉ ds →
      (splitSlashes (cs ++ '/' :: ds)).map String.ofList =
        (splitSlashes cs).map String.ofList ++ [String.ofList ds] := by
    intro cs ds hds
    rw [splitSlashes_append_slash, splitSlashes_of_not_mem hds, List.map_append, List.map_singleton]
  rcases exists_join_eq dir with ⟨hnil, hjoin⟩ | ⟨cs, hdir, hjoin⟩
  · refine ⟨[], .inr ?_, ?_⟩
    · unfold names
      rw [hnil]
      rfl
    · intro name h
      unfold names isAbsolute
      rw [hjoin name h, hnil, splitSlashes_of_not_mem h.1, List.map_singleton, String.ofList_toList]
      exact ⟨rfl, decide_eq_false fun hhead => h.1 (List.mem_of_head? hhead)⟩
  · refine ⟨(splitSlashes cs).map String.ofList, ?_, ?_⟩
    · unfold names
      rcases hdir with ⟨hcs, -⟩ | hcs
      · exact .inl (hcs ▸ rfl)
      · rw [hcs, hsplit cs [] List.not_mem_nil]
        exact .inr rfl
    · intro name h
      unfold names isAbsolute
      rw [hjoin name h, hsplit cs _ h.1, String.ofList_toList]
      refine ⟨rfl, ?_⟩
      -- the first character is that of the directory
      cases cs with
      | nil =>
        rcases hdir with ⟨-, hne⟩ | hcs
        · exact absurd rfl hne
        · rw [hcs]
          rfl
      | cons c cs =>
        rcases hdir with ⟨hcs, -⟩ | hcs
        · rw [hcs]
          rfl
        · rw [hcs]
          rfl

variable {dir : Path} {name name' : String}

/-- Different names give different paths, not only different places. -/
theorem join_ne (hname : IsName name) (hname' : IsName name') (hne : name ≠ name') :
    dir.join name ≠ dir.join name' := by
  obtain ⟨init, -, hjoin⟩ := exists_names_join dir
  intro heq
  have hnames := congrArg names heq
  rw [(hjoin name hname).1, (hjoin name' hname').1] at hnames
  exact hne (List.singleton_inj.1 (List.append_cancel_left hnames))

end Path

namespace FileTree

open TraceGraph.Path

variable {t u : FileTree} {dir : Path} {name name' : String}

/-- Where a name leads: into the directory, which is the same one for all names. -/
theorem exists_directory (t : FileTree) (dir : Path) :
    ∃ start init, ∀ name, IsName name →
      t.start (dir.join name) = start ∧ (dir.join name).names = init ++ [name] ∧
      ∀ place, t.resolve (dir.join name) = .ok place →
        ∃ d, t.walk start init = .ok d ∧ t.lookup? d = some .directory ∧ place = d ++ [name] := by
  obtain ⟨init, -, hjoin⟩ := exists_names_join dir
  refine ⟨t.start dir, init, ?_⟩
  intro name hname
  obtain ⟨hnames, habsolute⟩ := hjoin name hname
  have hstart : t.start (dir.join name) = t.start dir := by
    unfold FileTree.start
    rw [habsolute]
  refine ⟨hstart, hnames, ?_⟩
  intro place hplace
  have hwalk := (resolve_eq_ok_iff.1 hplace).2
  rw [hstart, hnames] at hwalk
  obtain ⟨d, hd, hdirectory, -, heq⟩ := (walk_concat_eq_ok_iff hname.2).1 hwalk
  exact ⟨d, hd, hdirectory, heq⟩

/-- Different names lead to different places. -/
theorem apart_join (hname : IsName name) (hname' : IsName name') (hne : name ≠ name') :
    (dir.join name).Apart (dir.join name') := by
  intro t place hplace hplace'
  obtain ⟨start, init, hdirectory⟩ := exists_directory t dir
  obtain ⟨d, hd, -, heq⟩ := (hdirectory name hname).2.2 place hplace
  obtain ⟨d', hd', -, heq'⟩ := (hdirectory name' hname').2.2 place hplace'
  obtain rfl : d = d' := Except.ok.inj (hd.symm.trans hd')
  exact hne (List.singleton_inj.1 (List.append_cancel_left (heq.symm.trans heq')))

/-- A walk that arrives goes on from where it has arrived. -/
theorem walk_append_of_ok {names more : List String} {place d : Place}
    (h : t.walk place names = .ok d) : t.walk place (names ++ more) = t.walk d more := by
  induction names generalizing place with
  | nil =>
    obtain rfl : place = d := Except.ok.inj h
    rfl
  | cons name names ih =>
    obtain ⟨hdir, next, hleads, hrest⟩ := walk_cons_eq_ok_iff.1 h
    rw [← ih hrest, List.cons_append, walk, hdir]
    cases hleads with
    | here hhere => exact if_pos hhere
    | up => exact (if_neg (by decide)).trans (if_pos rfl)
    | down hplain hup hshort =>
      exact ((if_neg hplain).trans (if_neg hup)).trans (if_neg hshort)

/-- In a directory of both trees a name leads to the same place or fails for the same reason. -/
theorem walk_singleton_congr {d : Place} (h : t.lookup? d = some .directory)
    (h' : u.lookup? d = some .directory) (name : String) : u.walk d [name] = t.walk d [name] := by
  unfold walk
  rw [h, h']
  rfl

/-- Trees with the same entries are walked alike, also where the walk fails. -/
theorem walk_congr (h : ∀ p, u.lookup? p = t.lookup? p) (place : Place) (names : List String) :
    u.walk place names = t.walk place names := by
  induction names generalizing place with
  | nil => rfl
  | cons name names ih =>
    unfold walk
    rw [h place]
    simp only [ih]

/-- A change at the place of a name leaves the ways of all names in the directory as they were. -/
theorem ChangedAt.resolve_join {places : List Place} (h : ChangedAt t u places)
    (hname : IsName name) (hname' : IsName name') {place : Place}
    (hplace : t.resolve (dir.join name) = .ok place) :
    u.resolve (dir.join name') = t.resolve (dir.join name') := by
  obtain ⟨start, init, hdirectory⟩ := exists_directory t dir
  obtain ⟨d, hd, hdir, -⟩ := (hdirectory name hname).2.2 place hplace
  obtain ⟨hstart, hnames, -⟩ := hdirectory name' hname'
  -- the walks agree up to the directory, which both trees have, and the last name is judged
  -- there
  unfold FileTree.resolve
  rw [h.start, hstart, hnames, walk_append_of_ok hd, walk_append_of_ok (h.walk hd),
    walk_singleton_congr hdir (h.directory hdir)]

/-- A change through some names of a directory is not seen through another name. -/
theorem Touched.get_join_eq {names : List String} (h : Touched t u (names.map dir.join))
    (hnames : ∀ name ∈ names, IsName name) (hname : IsName name) (hother : name ∉ names) :
    u.get (dir.join name) = t.get (dir.join name) := by
  obtain ⟨places, hchanged, hplaces⟩ := h
  have hresolve : u.resolve (dir.join name) = t.resolve (dir.join name) := by
    -- a change at no place at all leaves every walk alone; at some place, its directory is
    -- there
    cases places with
    | nil =>
      unfold FileTree.resolve
      rw [hchanged.start, walk_congr fun p => hchanged.others p List.not_mem_nil]
    | cons place places =>
      obtain ⟨p, hp, hplace⟩ := hplaces place (List.mem_cons_self ..)
      obtain ⟨touched, hmem, rfl⟩ := List.mem_map.1 hp
      exact hchanged.resolve_join (hnames touched hmem) hname hplace
  cases hplace : t.resolve (dir.join name) with
  | error e =>
    unfold FileTree.get
    rw [hresolve, hplace]
    rfl
  | ok place =>
    rw [get_of_resolve hplace, get_of_resolve (hresolve.trans hplace), hchanged.others place]
    intro hmem
    obtain ⟨p, hp, hsame⟩ := hplaces place hmem
    obtain ⟨touched, htouched, rfl⟩ := List.mem_map.1 hp
    have hne : touched ≠ name := fun heq => hother (heq ▸ htouched)
    exact apart_join (hnames touched htouched) hname hne t place hsame hplace

end FileTree

end TraceGraph
