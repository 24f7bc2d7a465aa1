import TraceGraph.FileTree

/-!
# What a change of the files leaves alone

Three operations change files: one writes a file, one removes it and one moves it. Each of
them changes the entries at one or two places, and none of these places is that of a
directory before or after the change. That one fact carries the module.

> `ChangedAt t u places`: the trees differ at `places` at most, and neither has a directory
> there.

A walk goes through directories only, so the change takes no step of it away and adds none
(`ChangedAt.walk`). Every path therefore still leads to the place that it led to
(`ChangedAt.resolve_eq_ok_iff`), and what is found at its end is what was found before,
unless the place is one of the changed ones (`ChangedAt.at?_eq`). Places are a matter of one
tree, while the callers speak of paths:

> `Touched t u paths`: the trees differ at most at the places to which `paths` lead.

Both relations compose, so a sequence of operations touches the paths of all of them and
nothing else (`Touched.trans`). The last section says of each operation what is then at the
ends of the paths that it is given and that only these are touched (`touched_write`,
`touched_remove`, `touched_rename`), and when it succeeds (`exists_write_iff`,
`remove_of_at?`, `rename_of_at?`). Later modules use these statements and never unfold an
operation.
-/

namespace TraceGraph

/-- Two paths never lead to the same place. -/
def Path.Apart (p q : Path) : Prop :=
  ∀ (t : FileTree) (place : Place), t.resolve p = .ok place → t.resolve q ≠ .ok place

namespace FileTree

/-- What is at the end of a path, whatever the reason if nothing is. -/
def at? (t : FileTree) (p : Path) : Option Entry := (t.get p).toOption

/-- A file can be at the end of a path: the directories above it are there, and the place itself is
not that of a directory. -/
def Vacant (t : FileTree) (p : Path) : Prop :=
  ∃ place, t.resolve p = .ok place ∧ t.lookup? place ≠ some .directory

instance (t : FileTree) (p : Path) : Decidable (t.Vacant p) :=
  match h : t.resolve p with
  | .error _ => isFalse fun ⟨place, hplace, _⟩ => by
    rw [h] at hplace
    cases hplace
  | .ok place => decidable_of_iff (t.lookup? place ≠ some .directory)
    ⟨fun hdir => ⟨place, h, hdir⟩, fun ⟨place', hplace, hdir⟩ => by
      rw [h] at hplace
      cases hplace
      exact hdir⟩

/-- Behind the walk, looking a path up is looking up its place. -/
theorem get_of_resolve {t : FileTree} {p : Path} {place : Place} (h : t.resolve p = .ok place) :
    t.get p = (t.lookup? place).elim (.error .noEntry) .ok := by
  unfold get
  rw [h]
  dsimp only [bind, Except.bind]
  cases t.lookup? place with
  | none => rfl
  | some entry => rfl

/-- A path is found exactly if it leads to a place and there is an entry there. -/
theorem get_eq_ok_iff {t : FileTree} {p : Path} {entry : Entry} :
    t.get p = .ok entry ↔ ∃ place, t.resolve p = .ok place ∧ t.lookup? place = some entry := by
  cases hp : t.resolve p with
  | error e =>
    unfold get
    rw [hp]
    exact ⟨nofun, nofun⟩
  | ok place =>
    rw [get_of_resolve hp]
    refine ⟨fun h => ⟨place, rfl, ?_⟩, ?_⟩
    · cases hl : t.lookup? place with
      | none =>
        rw [hl] at h
        cases h
      | some found =>
        rw [hl] at h
        cases h
        rfl
    · intro h
      obtain ⟨place', hplace, hentry⟩ := h
      cases hplace
      rw [hentry]
      rfl

theorem at?_eq_some_iff_get {t : FileTree} {p : Path} {entry : Entry} :
    t.at? p = some entry ↔ t.get p = .ok entry := by
  unfold at?
  cases t.get p with
  | error e => exact ⟨nofun, nofun⟩
  | ok found =>
    refine ⟨?_, ?_⟩
    · intro h
      cases h
      rfl
    · intro h
      cases h
      rfl

/-- `at?` in terms of places, which is the form that the frame lemmas need. -/
theorem at?_eq_some_iff {t : FileTree} {p : Path} {entry : Entry} :
    t.at? p = some entry ↔ ∃ place, t.resolve p = .ok place ∧ t.lookup? place = some entry :=
  at?_eq_some_iff_get.trans get_eq_ok_iff

theorem at?_of_resolve {t : FileTree} {p : Path} {place : Place} (h : t.resolve p = .ok place) :
    t.at? p = t.lookup? place := by
  refine Option.ext fun entry => at?_eq_some_iff.trans ⟨fun hentry => ?_, fun hentry => ?_⟩
  · obtain ⟨place', hplace, hentry⟩ := hentry
    rw [h] at hplace
    cases hplace
    exact hentry
  · exact ⟨place, h, hentry⟩

/-- The program asks whether a path is there without regard to the reason if it is not. -/
theorem contains_eq_isSome (t : FileTree) (p : Path) : t.contains p = (t.at? p).isSome := by
  unfold contains at?
  cases t.get p with
  | error e => rfl
  | ok entry => rfl

/-- A file that is at the end of a path is read from it. -/
theorem read_of_at? {t : FileTree} {p : Path} {content : Bytes}
    (h : t.at? p = some (.file content)) : t.read p = .ok content := by
  unfold read
  rw [at?_eq_some_iff_get.1 h]
  rfl

/-- Where one name of a path leads from a directory. -/
inductive Leads (place : Place) : String → Place → Prop where
  | here {name : String} (h : name = "" ∨ name = ".") : Leads place name place
  | up : Leads place ".." place.dropLast
  | down {name : String} (hplain : ¬(name = "" ∨ name = ".")) (hup : name ≠ "..")
      (hshort : ¬maxName < (Utf8.encode name).length) : Leads place name (place ++ [name])

/-- A walk starts in a directory and goes on from where its first name leads. -/
theorem walk_cons_eq_ok_iff {t : FileTree} {place q : Place} {name : String}
    {names : List String} :
    t.walk place (name :: names) = .ok q ↔
      t.lookup? place = some .directory ∧ ∃ next, Leads place name next ∧
        t.walk next names = .ok q := by
  refine ⟨?_, ?_⟩
  · intro h
    unfold walk at h
    split at h
    next => cases h
    next => cases h
    next hdir =>
      refine ⟨hdir, ?_⟩
      by_cases hhere : name = "" ∨ name = "."
      · rw [if_pos hhere] at h
        exact ⟨place, .here hhere, h⟩
      · rw [if_neg hhere] at h
        by_cases hup : name = ".."
        · rw [if_pos hup] at h
          exact ⟨place.dropLast, hup ▸ .up, h⟩
        · rw [if_neg hup] at h
          by_cases hlong : maxName < (Utf8.encode name).length
          · rw [if_pos hlong] at h
            cases h
          · rw [if_neg hlong] at h
            exact ⟨place ++ [name], .down hhere hup hlong, h⟩
  · intro h
    obtain ⟨hdir, next, hleads, hrest⟩ := h
    unfold walk
    rw [hdir]
    cases hleads with
    | here hhere => exact (if_pos hhere).trans hrest
    | up => exact ((if_neg (by decide)).trans (if_pos rfl)).trans hrest
    | down hplain hup hshort =>
      exact (((if_neg hplain).trans (if_neg hup)).trans (if_neg hshort)).trans hrest

/-- The root is a directory. -/
theorem ne_nil_of_lookup?_ne {t : FileTree} {place : Place}
    (h : t.lookup? place ≠ some .directory) : place ≠ [] := by
  intro hnil
  subst hnil
  exact h rfl

/-! ## Changes at some places -/

/-- Two trees differ at these places at most, and neither of them has a directory there. -/
structure ChangedAt (t u : FileTree) (places : List Place) : Prop where
  workingDirectory : u.workingDirectory = t.workingDirectory
  before : ∀ p ∈ places, t.lookup? p ≠ some .directory
  after : ∀ p ∈ places, u.lookup? p ≠ some .directory
  others : ∀ p, p ∉ places → u.lookup? p = t.lookup? p

namespace ChangedAt

variable {t u v : FileTree} {places : List Place}

theorem refl (t : FileTree) : ChangedAt t t [] := ⟨rfl, nofun, nofun, fun _ _ => rfl⟩

theorem symm (h : ChangedAt t u places) : ChangedAt u t places :=
  ⟨h.workingDirectory.symm, h.after, h.before, fun p hp => (h.others p hp).symm⟩

/-- Directories stay: no changed place was one. -/
theorem directory (h : ChangedAt t u places) {p : Place} (hp : t.lookup? p = some .directory) :
    u.lookup? p = some .directory := by
  by_cases hmem : p ∈ places
  · exact absurd hp (h.before p hmem)
  · rw [h.others p hmem, hp]

/-- Two changes after each other. A place of the first is free of directories after the
second as well, because the second one takes none away and puts none there. -/
theorem trans {more : List Place} (h : ChangedAt t u places) (h' : ChangedAt u v more) :
    ChangedAt t v (places ++ more) := by
  refine ⟨h'.workingDirectory.trans h.workingDirectory, ?_, ?_, ?_⟩
  · intro p hp hdir
    rcases List.mem_append.1 hp with hp | hp
    · exact h.before p hp hdir
    · exact h'.before p hp (h.directory hdir)
  · intro p hp hdir
    rcases List.mem_append.1 hp with hp | hp
    · exact h.after p hp (h'.symm.directory hdir)
    · exact h'.after p hp hdir
  · intro p hp
    rw [List.mem_append, not_or] at hp
    rw [h'.others p hp.2, h.others p hp.1]

/-- A walk that succeeds takes the same way in the changed tree. -/
theorem walk (h : ChangedAt t u places) {names : List String} {p q : Place}
    (hw : t.walk p names = .ok q) : u.walk p names = .ok q := by
  induction names generalizing p with
  | nil => exact hw
  | cons name names ih =>
    -- only a directory lets the walk go on, and a directory of the one tree is one of the other
    obtain ⟨hdir, next, hleads, hrest⟩ := walk_cons_eq_ok_iff.1 hw
    exact walk_cons_eq_ok_iff.2 ⟨h.directory hdir, next, hleads, ih hrest⟩

theorem start (h : ChangedAt t u places) (p : Path) : u.start p = t.start p := by
  unfold FileTree.start
  rw [h.workingDirectory]

/-- What a path leads to is decided by its text and by the directories on its way. -/
theorem resolve (h : ChangedAt t u places) {p : Path} {q : Place} (hr : t.resolve p = .ok q) :
    u.resolve p = .ok q := by
  unfold FileTree.resolve at hr ⊢
  cases hc : check p with
  | error e =>
    rw [hc] at hr
    cases hr
  | ok _ =>
    rw [hc] at hr
    rw [h.start]
    exact h.walk hr

/-- Paths lead to the same places before and after a change. -/
theorem resolve_eq_ok_iff (h : ChangedAt t u places) {p : Path} {q : Place} :
    u.resolve p = .ok q ↔ t.resolve p = .ok q := ⟨h.symm.resolve, h.resolve⟩

/-- A path that leads to none of the changed places leads to what it led to. -/
theorem at?_eq (h : ChangedAt t u places) {p : Path} (hp : ∀ q ∈ places, t.resolve p ≠ .ok q) :
    u.at? p = t.at? p := by
  refine Option.ext ?_
  intro entry
  rw [at?_eq_some_iff, at?_eq_some_iff]
  refine exists_congr ?_
  intro q
  rw [h.resolve_eq_ok_iff]
  -- both sides look up one and the same place, which no change has reached
  refine and_congr_right ?_
  intro hq
  rw [h.others q]
  intro hmem
  exact hp q hmem hq

theorem vacant (h : ChangedAt t u places) {p : Path} (hp : t.Vacant p) : u.Vacant p := by
  obtain ⟨q, hq, hentry⟩ := hp
  exact ⟨q, h.resolve hq, fun hdir => hentry (h.symm.directory hdir)⟩

end ChangedAt

/-- A file is put where no directory was. -/
theorem changedAt_set {t : FileTree} {place : Place} (h : t.lookup? place ≠ some .directory)
    (content : Bytes) : ChangedAt t (t.set place (.file content)) [place] := by
  have hne := ne_nil_of_lookup?_ne h
  refine ⟨rfl, ?_, ?_, ?_⟩
  · intro p hp
    rw [List.mem_singleton.1 hp]
    exact h
  · intro p hp
    rw [lookup?_set _ _ _ _ hne, if_pos (List.mem_singleton.1 hp)]
    exact nofun
  · intro p hp
    rw [lookup?_set _ _ _ _ hne, if_neg fun heq => hp (List.mem_singleton.2 heq)]

theorem changedAt_erase {t : FileTree} {place : Place} (h : t.lookup? place ≠ some .directory) :
    ChangedAt t (t.erase place) [place] := by
  have hne := ne_nil_of_lookup?_ne h
  refine ⟨rfl, ?_, ?_, ?_⟩
  · intro p hp
    rw [List.mem_singleton.1 hp]
    exact h
  · intro p hp
    rw [lookup?_erase _ _ _ hne, if_pos (List.mem_singleton.1 hp)]
    exact nofun
  · intro p hp
    rw [lookup?_erase _ _ _ hne, if_neg fun heq => hp (List.mem_singleton.2 heq)]

/-! ## Changes through some paths -/

/-- Two trees differ at most at the ends of these paths. -/
def Touched (t u : FileTree) (paths : List Path) : Prop :=
  ∃ places, ChangedAt t u places ∧ ∀ q ∈ places, ∃ p ∈ paths, t.resolve p = .ok q

namespace Touched

variable {t u v : FileTree} {paths : List Path}

theorem refl (t : FileTree) (paths : List Path) : Touched t t paths := ⟨[], .refl t, nofun⟩

/-- A change at the place of one path touches that path. -/
theorem of_changedAt {p : Path} {place : Place} (hp : t.resolve p = .ok place)
    (h : ChangedAt t u [place]) : Touched t u [p] := by
  refine ⟨[place], h, fun q hq => ⟨p, List.mem_singleton_self p, ?_⟩⟩
  rw [List.mem_singleton.1 hq, hp]

/-- Changes through the paths of two operations. The places of the second are those to which
its paths led before the first, since the first has not moved them. -/
theorem trans {more : List Path} (h : Touched t u paths) (h' : Touched u v more) :
    Touched t v (paths ++ more) := by
  obtain ⟨places, hchanged, hplaces⟩ := h
  obtain ⟨places', hchanged', hplaces'⟩ := h'
  refine ⟨places ++ places', hchanged.trans hchanged', ?_⟩
  intro q hq
  rcases List.mem_append.1 hq with hq | hq
  · obtain ⟨p, hp, hresolve⟩ := hplaces q hq
    exact ⟨p, List.mem_append_left _ hp, hresolve⟩
  · obtain ⟨p, hp, hresolve⟩ := hplaces' q hq
    exact ⟨p, List.mem_append_right _ hp, hchanged.resolve_eq_ok_iff.1 hresolve⟩

/-- Touched paths lead where they led: only the entries at their ends are new. -/
theorem resolve_eq_ok_iff (h : Touched t u paths) {p : Path} {q : Place} :
    u.resolve p = .ok q ↔ t.resolve p = .ok q := by
  obtain ⟨places, hchanged, -⟩ := h
  exact hchanged.resolve_eq_ok_iff

/-- A sequence of operations does not take the room for a later one. -/
theorem vacant (h : Touched t u paths) {p : Path} (hp : t.Vacant p) : u.Vacant p := by
  obtain ⟨places, hchanged, -⟩ := h
  exact hchanged.vacant hp

/-- A path that leads where none of the touched ones lead does not see the change. -/
theorem at?_eq (h : Touched t u paths) {q : Path}
    (hq : ∀ p ∈ paths, ∀ place, t.resolve p = .ok place → t.resolve q ≠ .ok place) :
    u.at? q = t.at? q := by
  obtain ⟨places, hchanged, hplaces⟩ := h
  refine hchanged.at?_eq fun place hplace => ?_
  obtain ⟨p, hp, hresolve⟩ := hplaces place hplace
  exact hq p hp place hresolve

end Touched

/-! ## The operations -/

variable {t u : FileTree} {p : Path}

/-- Without a slash behind it the target of a write is the place of the path. -/
theorem target_eq_resolve (h : p.endsInSlash = false) (t : FileTree) :
    t.target p = t.resolve p := by
  unfold target resolve
  rw [h]
  rfl

/-- A write succeeds exactly where no directory is, and then sets the file. -/
theorem write_eq_ok_iff (h : p.endsInSlash = false) {content : Bytes} :
    t.write p content = .ok u ↔
      ∃ place, t.resolve p = .ok place ∧ t.lookup? place ≠ some .directory ∧
        u = t.set place (.file content) := by
  unfold write
  rw [target_eq_resolve h]
  cases hp : t.resolve p with
  | error e => exact ⟨nofun, nofun⟩
  | ok place =>
    dsimp only [bind, Except.bind]
    refine ⟨?_, ?_⟩
    · intro hw
      split at hw
      next => cases hw
      next hdir =>
        cases hw
        exact ⟨place, rfl, hdir, rfl⟩
    · intro hw
      obtain ⟨place', hplace, hdir, hu⟩ := hw
      cases hplace
      rw [hu]
      split
      next hdir' => exact absurd hdir' hdir
      next => rfl

theorem remove_eq_ok_iff :
    t.remove p = .ok u ↔
      ∃ place content, t.resolve p = .ok place ∧ t.lookup? place = some (.file content) ∧
        u = t.erase place := by
  unfold remove
  cases hp : t.resolve p with
  | error e => exact ⟨nofun, nofun⟩
  | ok place =>
    dsimp only [bind, Except.bind]
    refine ⟨?_, ?_⟩
    · intro hr
      split at hr
      next => cases hr
      next => cases hr
      next content hfile =>
        cases hr
        exact ⟨place, content, rfl, hfile, rfl⟩
    · intro hr
      obtain ⟨place', content, hplace, hfile, hu⟩ := hr
      cases hplace
      rw [hfile, hu]

/-- A move takes a file away and sets it again at a place where no directory is. Both places
are those of the tree before the move. -/
theorem rename_eq_ok_iff {destination : Path} :
    t.rename p destination = .ok u ↔
      ∃ origin place content, t.resolve p = .ok origin ∧ t.resolve destination = .ok place ∧
        t.lookup? origin = some (.file content) ∧ t.lookup? place ≠ some .directory ∧
        u = (t.erase origin).set place (.file content) := by
  unfold rename
  cases hp : t.resolve p with
  | error e => exact ⟨nofun, nofun⟩
  | ok origin =>
    dsimp only [bind, Except.bind]
    cases hd : t.resolve destination with
    | error e => exact ⟨nofun, nofun⟩
    | ok place =>
      dsimp only [bind, Except.bind]
      refine ⟨?_, ?_⟩
      · intro hr
        split at hr
        next => cases hr
        next => cases hr
        next => cases hr
        next content hfile hdir =>
          cases hr
          exact ⟨origin, place, content, rfl, rfl, hfile, hdir, rfl⟩
      · intro hr
        obtain ⟨origin', place', content, horigin, hplace, hfile, hdir, hu⟩ := hr
        cases horigin
        cases hplace
        rw [hfile, hu]
        split
        next heq => cases heq
        next heq => cases heq
        next hdir' => exact absurd hdir' hdir
        next heq _ =>
          cases heq
          rfl

theorem write_of_vacant (h : p.endsInSlash = false) (hp : t.Vacant p) (content : Bytes) :
    ∃ u, t.write p content = .ok u := by
  obtain ⟨place, hplace, hdir⟩ := hp
  exact ⟨_, (write_eq_ok_iff h).2 ⟨place, hplace, hdir, rfl⟩⟩

/-- What was written is at the end of the path, and nothing else has changed. -/
theorem touched_write (h : p.endsInSlash = false) {content : Bytes}
    (hw : t.write p content = .ok u) : u.at? p = some (.file content) ∧ Touched t u [p] := by
  obtain ⟨place, hplace, hdir, hu⟩ := (write_eq_ok_iff h).1 hw
  have hchanged := hu ▸ changedAt_set hdir content
  refine ⟨?_, .of_changedAt hplace hchanged⟩
  rw [at?_of_resolve (hchanged.resolve hplace), hu,
    lookup?_set _ _ _ _ (ne_nil_of_lookup?_ne hdir), if_pos rfl]

/-- What is there as a file can be removed. -/
theorem remove_of_at? {content : Bytes} (h : t.at? p = some (.file content)) :
    ∃ u, t.remove p = .ok u := by
  obtain ⟨place, hplace, hfile⟩ := at?_eq_some_iff.1 h
  exact ⟨_, remove_eq_ok_iff.2 ⟨place, content, hplace, hfile, rfl⟩⟩

/-- Nothing is left at the end of the path, and nothing else has changed. -/
theorem touched_remove (hr : t.remove p = .ok u) : u.at? p = none ∧ Touched t u [p] := by
  obtain ⟨place, content, hplace, hfile, hu⟩ := remove_eq_ok_iff.1 hr
  have hdir : t.lookup? place ≠ some .directory := by
    rw [hfile]
    exact nofun
  have hchanged := hu ▸ changedAt_erase hdir
  refine ⟨?_, .of_changedAt hplace hchanged⟩
  rw [at?_of_resolve (hchanged.resolve hplace), hu,
    lookup?_erase _ _ _ (ne_nil_of_lookup?_ne hdir), if_pos rfl]

/-- Where no directory is, clearing a path succeeds whether or not a file is there. -/
theorem removeIfPresent_of_vacant (h : t.Vacant p) : ∃ u, t.removeIfPresent p = .ok u := by
  unfold removeIfPresent
  rw [contains_eq_isSome]
  obtain ⟨place, hplace, hdir⟩ := h
  rw [at?_of_resolve hplace]
  cases hl : t.lookup? place with
  | none => exact ⟨t, rfl⟩
  | some entry =>
    cases entry with
    | directory => exact absurd hl hdir
    | file content =>
      rw [← at?_of_resolve hplace] at hl
      exact remove_of_at? hl

/-- After clearing a path nothing is at its end, whether or not something was. -/
theorem touched_removeIfPresent (hr : t.removeIfPresent p = .ok u) :
    u.at? p = none ∧ Touched t u [p] := by
  unfold removeIfPresent at hr
  by_cases hp : t.contains p = true
  · rw [if_pos hp] at hr
    exact touched_remove hr
  · rw [if_neg hp] at hr
    cases hr
    rw [contains_eq_isSome, Bool.not_eq_true, Option.isSome_eq_false_iff] at hp
    exact ⟨Option.isNone_iff_eq_none.1 hp, .refl t [p]⟩

/-- A file can be moved to every path with room for one. -/
theorem rename_of_at? {destination : Path} {content : Bytes}
    (h : t.at? p = some (.file content)) (hd : t.Vacant destination) :
    ∃ u, t.rename p destination = .ok u := by
  obtain ⟨origin, horigin, hfile⟩ := at?_eq_some_iff.1 h
  obtain ⟨place, hplace, hdir⟩ := hd
  exact ⟨_, rename_eq_ok_iff.2 ⟨origin, place, content, horigin, hplace, hfile, hdir, rfl⟩⟩

/-- What was at the end of the one path is at the end of the other, and nothing else has changed. -/
theorem touched_rename {destination : Path} (hr : t.rename p destination = .ok u) :
    (∃ content, t.at? p = some (.file content) ∧ u.at? destination = some (.file content)) ∧
      Touched t u [p, destination] := by
  obtain ⟨origin, place, content, horigin, hplace, hfile, hdir, hu⟩ := rename_eq_ok_iff.1 hr
  have horigin' : t.lookup? origin ≠ some .directory := by
    rw [hfile]
    exact nofun
  have hgone := changedAt_erase horigin'
  have hset := changedAt_set (fun h => hdir (hgone.symm.directory h)) content
  rw [← hu] at hset
  have hplace' := hgone.resolve hplace
  refine ⟨⟨content, ?_, ?_⟩,
    (Touched.of_changedAt horigin hgone).trans (.of_changedAt hplace' hset)⟩
  · rw [at?_of_resolve horigin, hfile]
  · rw [at?_of_resolve (hset.resolve hplace'), hu,
      lookup?_set _ _ _ _ (ne_nil_of_lookup?_ne hdir), if_pos rfl]

/-- A moved file has left the path that it was moved from. -/
theorem at?_rename_source {destination : Path} (hr : t.rename p destination = .ok u)
    (h : p.Apart destination) : u.at? p = none := by
  obtain ⟨origin, place, content, horigin, hplace, hfile, hdir, hu⟩ := rename_eq_ok_iff.1 hr
  have hne := ne_nil_of_lookup?_ne hdir
  have horigin' : origin ≠ [] := by
    refine ne_nil_of_lookup?_ne (t := t) ?_
    rw [hfile]
    exact nofun
  have hapart : origin ≠ place := by
    intro heq
    subst heq
    exact h t origin horigin hplace
  obtain ⟨-, htouched⟩ := touched_rename hr
  rw [at?_of_resolve (htouched.resolve_eq_ok_iff.2 horigin), hu, lookup?_set _ _ _ _ hne,
    if_neg hapart, lookup?_erase _ _ _ horigin', if_pos rfl]

end FileTree

end TraceGraph
