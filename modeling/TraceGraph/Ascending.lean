/-!
# Strictly ascending lists

A finite set of ordered things is kept as the list of its members without repetition,
smallest first. This is the canonical form of a set: it is written to a file as it stands,
and two sets are equal if and only if their lists are.

The order has to be irreflexive, transitive and total (`StrictOrder`). It is asked of the
type and not of each set, so that a list carries no proofs but that it is ascending.

* `mem_insert` and `pairwise_insert`: an insertion adds its element and keeps the order.
  Both are by induction on the list, with the two comparisons of `insert` as cases.
* `mem_ofList` and `pairwise_ofList`: so do any number of insertions, and the order in which
  they are made is lost.
* `eq_of_mem_iff`: two ascending lists with the same members are equal. The heads are equal
  because each of them is a member of the other list and not below its head, and then so are
  the tails.
-/

namespace TraceGraph.Ascending

variable {α : Type} [LT α] [DecidableLT α] [DecidableEq α]

/-- What an order has to satisfy for its ascending lists to be sets. -/
class StrictOrder (α : Type) [LT α] : Prop where
  irrefl : ∀ a : α, ¬a < a
  trans : ∀ {a b c : α}, a < b → b < c → a < c
  lt_of_not_lt : ∀ {a b : α}, ¬a < b → a ≠ b → b < a

/-- An ascending list with one more member at its place. -/
def insert (a : α) : List α → List α
  | [] => [a]
  | b :: bs =>
    if a < b then a :: b :: bs
    else if a = b then b :: bs
    else b :: insert a bs

/-- The members of a list in ascending order. -/
def ofList (as : List α) : List α := as.foldl (fun bs a => insert a bs) []

/-- An insertion adds its element and nothing else. -/
theorem mem_insert {a c : α} {bs : List α} : c ∈ insert a bs ↔ c = a ∨ c ∈ bs := by
  induction bs with
  | nil => simp [insert]
  | cons b bs ih =>
    rw [insert]
    split
    · simp
    · split
      next h => subst h; simp
      next => simp only [List.mem_cons, ih]; grind

/-- An insertion keeps a list ascending. -/
theorem pairwise_insert [StrictOrder α] {a : α} {bs : List α} (h : bs.Pairwise (· < ·)) :
    (insert a bs).Pairwise (· < ·) := by
  induction bs with
  | nil => exact List.pairwise_singleton ..
  | cons b bs ih =>
    rw [List.pairwise_cons] at h
    rw [insert]
    split
    next hab =>
      refine List.pairwise_cons.2 ⟨fun c hc => ?_, List.pairwise_cons.2 h⟩
      rcases List.mem_cons.1 hc with rfl | hc
      · exact hab
      · exact StrictOrder.trans hab (h.1 c hc)
    next hab =>
      split
      next => exact List.pairwise_cons.2 h
      next hne =>
        refine List.pairwise_cons.2 ⟨fun c hc => ?_, ih h.2⟩
        rcases mem_insert.1 hc with rfl | hc
        · exact StrictOrder.lt_of_not_lt hab hne
        · exact h.1 c hc

theorem mem_foldl_insert {c : α} (as : List α) (bs : List α) :
    c ∈ as.foldl (fun bs a => insert a bs) bs ↔ c ∈ as ∨ c ∈ bs := by
  induction as generalizing bs with
  | nil => simp
  | cons a as ih => rw [List.foldl_cons, ih, mem_insert, List.mem_cons]; grind

theorem pairwise_foldl_insert [StrictOrder α] (as : List α) {bs : List α}
    (h : bs.Pairwise (· < ·)) : (as.foldl (fun bs a => insert a bs) bs).Pairwise (· < ·) := by
  induction as generalizing bs with
  | nil => exact h
  | cons a as ih => exact ih (pairwise_insert h)

/-- The members of a list are kept, but for their order and number. -/
theorem mem_ofList {c : α} {as : List α} : c ∈ ofList as ↔ c ∈ as := by
  simp [ofList, mem_foldl_insert]

/-- The members come in ascending order. -/
theorem pairwise_ofList [StrictOrder α] (as : List α) : (ofList as).Pairwise (· < ·) :=
  pairwise_foldl_insert as List.Pairwise.nil

omit [DecidableLT α] [DecidableEq α] in
/-- An ascending list is determined by its members. -/
theorem eq_of_mem_iff [StrictOrder α] {as bs : List α} (ha : as.Pairwise (· < ·))
    (hb : bs.Pairwise (· < ·)) (h : ∀ c, c ∈ as ↔ c ∈ bs) : as = bs := by
  induction as generalizing bs with
  | nil =>
    cases bs with
    | nil => rfl
    | cons b bs => exact absurd ((h b).2 (List.mem_cons_self ..)) List.not_mem_nil
  | cons a as ih =>
    cases bs with
    | nil => exact absurd ((h a).1 (List.mem_cons_self ..)) List.not_mem_nil
    | cons b bs =>
      rw [List.pairwise_cons] at ha hb
      have hab : a = b := by
        rcases List.mem_cons.1 ((h a).1 (List.mem_cons_self ..)) with hab | hab
        · exact hab
        · rcases List.mem_cons.1 ((h b).2 (List.mem_cons_self ..)) with hba | hba
          · exact hba.symm
          · exact absurd (StrictOrder.trans (ha.1 b hba) (hb.1 a hab)) (StrictOrder.irrefl a)
      subst hab
      congr 1
      -- the head is below all others, so it is not among them, and the tails have the same
      -- members
      refine ih ha.2 hb.2 fun c => ?_
      have hc := h c
      simp only [List.mem_cons] at hc
      constructor
      · intro hmem
        rcases hc.1 (Or.inr hmem) with rfl | hmem'
        · exact absurd (ha.1 c hmem) (StrictOrder.irrefl c)
        · exact hmem'
      · intro hmem
        rcases hc.2 (Or.inr hmem) with rfl | hmem'
        · exact absurd (hb.1 c hmem) (StrictOrder.irrefl c)
        · exact hmem'

end TraceGraph.Ascending
