import Mathlib.Data.List.Count
import TraceGraph.Graph.Dot
import TraceGraph.Proofs.Graph.Diagnosis
import TraceGraph.Proofs.Metadata

/-!
# What a drawing holds

A drawing is a text of lines in which labels stand between quotes. Labels are made of
instructions and can hold anything, so an escape takes the place of each character that
could end a label or a line. The module shows that nothing leaks out of a label and nothing
is lost in it.

An escaped label ends at the quote behind it (`cutLabel?_escaped`) and can be read back
(`unescape?_escaped`), so different labels stay different (`escape_injective`). The three
replacements can be made one after the other over the whole text, because what one of them
puts in is not touched by the next (`toList_escape_eq_replace`). All of this is by cases on
one character (`Escapes`).

No line of a drawing holds a line feed (`lineFeed_not_mem_line`). So a drawing that is cut
at its line feeds is the list of its lines:

> `splitOn_toDot`: the lines come back from the text.

Among the lines the one of an edge tells the edge (`edgeLine_injective`) and is the line of
no node (`nodeLine_ne_edgeLine`), whatever the labels are; it therefore stands in the
drawing as often as the edge is recorded at its source (`count_edgeLine`).

The main result is `Graph.toDot_lines`.
-/

namespace TraceGraph

namespace Dot

/-! ## Labels -/

/-- The text with another text in place of each occurrence of a character. -/
def replace (old : Char) (new text : List Char) : List Char :=
  text.flatMap fun c => if c = old then new else [c]

/-- Cuts a text at the quote that ends a label. A character behind a backslash ends nothing. -/
def cutLabel? : List Char → Option (List Char × List Char)
  | [] => none
  | '"' :: rest => some ([], rest)
  | ['\\'] => none
  | '\\' :: c :: rest => (cutLabel? rest).map fun (label, behind) => ('\\' :: c :: label, behind)
  | c :: rest => (cutLabel? rest).map fun (label, behind) => (c :: label, behind)

/-- The text that an escaped label stands for. -/
def unescape? : List Char → Option (List Char)
  | [] => some []
  | '\\' :: '\\' :: rest => (unescape? rest).map ('\\' :: ·)
  | '\\' :: '"' :: rest => (unescape? rest).map ('"' :: ·)
  | '\\' :: 'n' :: rest => (unescape? rest).map ('\n' :: ·)
  | '\\' :: _ => none
  | c :: rest => (unescape? rest).map (c :: ·)

/-- The label of a line, and what stands behind the quote that ends it. The first quote of the line
starts the label. -/
def readLabel? (line : List Char) : Option (List Char × List Char) := do
  let (escaped, behind) ← cutLabel? (line.dropWhile (· ≠ '"')).tail
  let text ← unescape? escaped
  return (text, behind)

/-- What stands for a character in a label. -/
inductive Escapes : Char → List Char → Prop
  | backslash : Escapes '\\' ['\\', '\\']
  | quote : Escapes '"' ['\\', '"']
  | lineFeed : Escapes '\n' ['\\', 'n']
  | plain {c : Char} (hbackslash : c ≠ '\\') (hquote : c ≠ '"') (hlineFeed : c ≠ '\n') :
      Escapes c [c]

/-- Each character is escaped in one of four ways. -/
theorem exists_escapes (c : Char) : ∃ escaped, escapeChar c = escaped ∧ Escapes c escaped := by
  refine ⟨_, rfl, ?_⟩
  unfold escapeChar
  split
  next => exact .backslash
  next => exact .quote
  next => exact .lineFeed
  next hbackslash hquote hlineFeed => exact .plain hbackslash hquote hlineFeed

/-- The escaped text of a label. -/
theorem toList_escape (text : String) : (escape text).toList = text.toList.flatMap escapeChar :=
  String.toList_ofList

/-- Replacing backslashes first, quotes second and line feeds last escapes each character once: what
one replacement has put in is not touched by the next. -/
theorem toList_escape_eq_replace (text : String) :
    (escape text).toList =
      replace '\n' ['\\', 'n']
        (replace '"' ['\\', '"'] (replace '\\' ['\\', '\\'] text.toList)) := by
  rw [toList_escape]
  unfold replace
  rw [List.flatMap_assoc, List.flatMap_assoc]
  refine List.flatMap_congr ?_
  intro c _
  obtain ⟨escaped, hescaped, h⟩ := exists_escapes c
  rw [hescaped]
  cases h with
  | backslash => rfl
  | quote => rfl
  | lineFeed => rfl
  | plain hbackslash hquote hlineFeed =>
    rw [if_neg hbackslash, List.flatMap_singleton, if_neg hquote, List.flatMap_singleton,
      if_neg hlineFeed]

/-- A character that is neither a backslash nor a quote belongs to the label. -/
theorem cutLabel?_cons {c : Char} (hbackslash : c ≠ '\\') (hquote : c ≠ '"') (rest : List Char) :
    cutLabel? (c :: rest) =
      (cutLabel? rest).map fun (label, behind) => (c :: label, behind) := by
  rw [cutLabel?]
  · exact hquote
  · exact fun hc _ => hbackslash hc
  · exact fun _ _ hc _ => hbackslash hc

/-- An escaped label ends at the quote that is put behind it. -/
theorem cutLabel?_escaped (text behind : List Char) :
    cutLabel? (text.flatMap escapeChar ++ '"' :: behind) =
      some (text.flatMap escapeChar, behind) := by
  induction text with
  | nil => rfl
  | cons c text ih =>
    rw [List.flatMap_cons, List.append_assoc]
    obtain ⟨escaped, hescaped, h⟩ := exists_escapes c
    rw [hescaped]
    cases h with
    | backslash => exact congrArg (Option.map _) ih
    | quote => exact congrArg (Option.map _) ih
    | lineFeed => exact congrArg (Option.map _) ih
    | plain hbackslash hquote hlineFeed =>
      rw [List.singleton_append, cutLabel?_cons hbackslash hquote, ih]
      rfl

theorem unescape?_cons {c : Char} (h : c ≠ '\\') (rest : List Char) :
    unescape? (c :: rest) = (unescape? rest).map (c :: ·) := by
  rw [unescape?]
  · exact fun _ hc _ => h hc
  · exact fun _ hc _ => h hc
  · exact fun _ hc _ => h hc
  · exact h

/-- An escaped text is read back as itself. -/
theorem unescape?_escaped (text : List Char) :
    unescape? (text.flatMap escapeChar) = some text := by
  induction text with
  | nil => rfl
  | cons c text ih =>
    rw [List.flatMap_cons]
    obtain ⟨escaped, hescaped, h⟩ := exists_escapes c
    rw [hescaped]
    cases h with
    | backslash => exact congrArg (Option.map _) ih
    | quote => exact congrArg (Option.map _) ih
    | lineFeed => exact congrArg (Option.map _) ih
    | plain hbackslash hquote hlineFeed =>
      rw [List.singleton_append, unescape?_cons hbackslash, ih]
      rfl

/-- An escaped text is one line. -/
theorem lineFeed_not_mem_escape (text : String) : '\n' ∉ (escape text).toList := by
  rw [toList_escape, List.mem_flatMap]
  rintro ⟨c, -, hc⟩
  obtain ⟨escaped, hescaped, h⟩ := exists_escapes c
  rw [hescaped] at hc
  cases h with
  | backslash => exact absurd hc (by decide)
  | quote => exact absurd hc (by decide)
  | lineFeed => exact absurd hc (by decide)
  | plain _ _ hlineFeed => exact hlineFeed (List.mem_singleton.1 hc).symm

/-- An escaped label tells the label. -/
theorem escape_injective : Function.Injective escape := by
  intro text text' h
  have hread := congrArg (fun escaped => unescape? escaped.toList) h
  simp only [toList_escape, unescape?_escaped] at hread
  exact String.toList_injective (Option.some.inj hread)

/-! ## Lines -/

/-- What stands behind the label of a node. -/
def attributes (style : Style) : List Char :=
  ", shape=".toList ++ (style.shape.toList ++ (", style=\"".toList ++ (style.line.toList ++
    ("\", fillcolor=\"".toList ++ (style.fill.toList ++ "\"];".toList)))))

/-- The line of a node, with the label between its first two free quotes. -/
theorem toList_nodeLine (node : Node) :
    (nodeLine node).toList =
      "    n".toList ++ (Nat.toDigits 10 node.index.toNat ++ (" [label=".toList ++
        '"' :: ((escape (label node)).toList ++ '"' :: attributes (.of node)))) := by
  let style := Style.of node
  show ("    n" ++ Nat.repr node.index.toNat ++ " [label=\"" ++ escape (label node) ++
    ("\", shape=" ++ style.shape) ++
    (", style=\"" ++ style.line ++ "\", fillcolor=\"" ++ style.fill ++ "\"];")).toList = _
  simp only [String.toList_append, Nat.toList_repr, List.append_assoc]
  rfl

/-- The line of an edge holds its two indices and nothing else that varies. -/
theorem toList_edgeLine (source target : UInt32) :
    (edgeLine source target).toList =
      "    n".toList ++ (Nat.toDigits 10 source.toNat ++ (" -> n".toList ++
        (Nat.toDigits 10 target.toNat ++ [';']))) := by
  show ("    n" ++ Nat.repr source.toNat ++ " -> n" ++ Nat.repr target.toNat ++ ";").toList = _
  simp only [String.toList_append, Nat.toList_repr, List.append_assoc]
  rfl

/-- A number is cut off where something else than a digit stands behind it. -/
theorem eq_of_toDigits_append {m n : Nat} {c d : Char} {rest rest' : List Char}
    (hc : c.isDigit = false) (hd : d.isDigit = false)
    (h : Nat.toDigits 10 m ++ c :: rest = Nat.toDigits 10 n ++ d :: rest') :
    m = n ∧ c :: rest = d :: rest' := by
  have hcut := Json.takeDigits?_toDigits m hc rest
  rw [h, Json.takeDigits?_toDigits n hd rest'] at hcut
  obtain ⟨hdigits, hrest⟩ := Prod.mk.inj (Option.some.inj hcut)
  have hnumber := congrArg (Digits.number 10) hdigits
  rw [Json.number_toDigits, Json.number_toDigits] at hnumber
  exact ⟨hnumber.symm, hrest.symm⟩

/-- The digits of a number are digits. -/
theorem isDigit_of_mem_toDigits {n : Nat} {c : Char} (h : c ∈ Nat.toDigits 10 n) :
    c.isDigit = true :=
  Nat.isDigit_of_mem_toDigits (by decide) (by decide) h

/-- The line of an edge tells both of its ends. -/
theorem edgeLine_injective {source target source' target' : UInt32}
    (h : edgeLine source target = edgeLine source' target') :
    source = source' ∧ target = target' := by
  have hlist := congrArg String.toList h
  rw [toList_edgeLine, toList_edgeLine] at hlist
  obtain ⟨hsource, hrest⟩ :
      source.toNat = source'.toNat ∧ " -> n".toList ++ _ = " -> n".toList ++ _ :=
    eq_of_toDigits_append (by decide) (by decide) (List.append_cancel_left hlist)
  obtain ⟨htarget, -⟩ :=
    eq_of_toDigits_append (by decide) (by decide) (List.append_cancel_left hrest)
  exact ⟨UInt32.toNat_inj.1 hsource, UInt32.toNat_inj.1 htarget⟩

/-- No node has the line of an edge. -/
theorem nodeLine_ne_edgeLine (node : Node) (source target : UInt32) :
    nodeLine node ≠ edgeLine source target := by
  intro h
  have hlist := congrArg String.toList h
  rw [toList_nodeLine, toList_edgeLine] at hlist
  -- behind the index of a node stands a bracket, behind that of a source an arrow
  obtain ⟨-, hrest⟩ :=
    eq_of_toDigits_append (by decide) (by decide) (List.append_cancel_left hlist)
  cases hrest

/-- Whether a line goes on with a number where the line of an edge does. No line that stands in
every drawing does so. -/
def hasNumber (line : String) : Bool := line.toList[5]?.any Char.isDigit

/-- The line of an edge has a digit where the fixed lines have none. -/
theorem hasNumber_edgeLine (source target : UInt32) :
    hasNumber (edgeLine source target) = true := by
  obtain ⟨d, ds, hdigits, -⟩ := Json.exists_toDigits_eq_cons source.toNat
  unfold hasNumber
  rw [toList_edgeLine, hdigits]
  exact isDigit_of_mem_toDigits (hdigits ▸ List.mem_cons_self ..)

/-- No line without a number is that of an edge. -/
theorem edgeLine_not_mem {lines : List String} (h : ∀ line ∈ lines, hasNumber line = false)
    (source target : UInt32) : edgeLine source target ∉ lines := by
  intro hmem
  have hline := h _ hmem
  rw [hasNumber_edgeLine] at hline
  cases hline

theorem lineFeed_not_mem_toDigits (n : Nat) : '\n' ∉ Nat.toDigits 10 n := by
  intro hmem
  have hdigit := isDigit_of_mem_toDigits hmem
  exact absurd hdigit (by decide)

theorem lineFeed_not_mem_attributes (node : Node) : '\n' ∉ attributes (.of node) := by
  unfold Style.of
  split
  next => decide
  next =>
    split
    next => decide
    next => decide

/-- The line of a node is one line, whatever its label is. -/
theorem lineFeed_not_mem_nodeLine (node : Node) : '\n' ∉ (nodeLine node).toList := by
  rw [toList_nodeLine]
  simp only [List.mem_append, List.mem_cons, not_or]
  exact ⟨by decide, lineFeed_not_mem_toDigits _, by decide, by decide,
    lineFeed_not_mem_escape _, by decide, lineFeed_not_mem_attributes node⟩

theorem lineFeed_not_mem_edgeLine (source target : UInt32) :
    '\n' ∉ (edgeLine source target).toList := by
  rw [toList_edgeLine]
  simp only [List.mem_append, not_or]
  exact ⟨by decide, lineFeed_not_mem_toDigits _, by decide, lineFeed_not_mem_toDigits _, by decide⟩

/-- The lines of the edges of a graph, as they are recorded at their sources. -/
def edgeLines (g : Graph) : List String := g.outgoingEdges.map fun e => edgeLine e.source e.target

/-- The lines of a drawing, with the edges as a diagnosis collects them. -/
theorem lines_eq (g : Graph) :
    lines g = header ++ g.nodes.map nodeLine ++ [""] ++ edgeLines g ++ ["\x7d"] := by
  unfold lines edgeLines Graph.outgoingEdges
  rw [List.map_flatMap]
  simp only [List.map_map]
  rfl

/-- No line is broken. -/
theorem lineFeed_not_mem_line {g : Graph} {line : String} (h : line ∈ lines g) :
    '\n' ∉ line.toList := by
  rw [lines_eq] at h
  simp only [List.mem_append] at h
  rcases h with (((hheader | hnode) | hblank) | hedge) | hend
  · have hall : ∀ line ∈ header, '\n' ∉ line.toList := by decide
    exact hall line hheader
  · obtain ⟨node, -, rfl⟩ := List.mem_map.1 hnode
    exact lineFeed_not_mem_nodeLine node
  · rw [List.mem_singleton.1 hblank]
    decide
  · obtain ⟨e, -, rfl⟩ := List.mem_map.1 hedge
    exact lineFeed_not_mem_edgeLine e.source e.target
  · rw [List.mem_singleton.1 hend]
    decide

/-- A drawing that is cut at its line feeds is the list of its lines. -/
theorem splitOn_toDot (g : Graph) :
    (g.toDot.toList.splitOn '\n').map String.ofList = lines g := by
  have hjoined : g.toDot.toList = ['\n'].intercalate ((lines g).map String.toList) := by
    unfold Graph.toDot
    rw [String.toList_intercalate]
    rfl
  have hbroken : ∀ line ∈ (lines g).map String.toList, '\n' ∉ line := by
    intro chars hchars
    obtain ⟨line, hline, rfl⟩ := List.mem_map.1 hchars
    exact lineFeed_not_mem_line hline
  rw [hjoined, List.splitOn_intercalate '\n' hbroken (by simp [lines_eq]), List.map_map]
  simp [Function.comp_def]

/-- The label of a node is read back from its line, and behind it come the attributes. -/
theorem readLabel?_nodeLine (node : Node) :
    readLabel? (nodeLine node).toList = some ((label node).toList, attributes (.of node)) := by
  let behind := (escape (label node)).toList ++ '"' :: attributes (.of node)
  have hfront : ∀ c ∈ "    n".toList ++ (Nat.toDigits 10 node.index.toNat ++ " [label=".toList),
      decide (c ≠ '"') = true := by
    intro c hc
    refine decide_eq_true ?_
    rintro rfl
    simp only [List.mem_append] at hc
    rcases hc with hc | hc | hc
    · exact absurd hc (by decide)
    · exact absurd (isDigit_of_mem_toDigits hc) (by decide)
    · exact absurd hc (by decide)
  have hdrop : (nodeLine node).toList.dropWhile (· ≠ '"') = '"' :: behind := by
    have hline : (nodeLine node).toList = "    n".toList ++
        (Nat.toDigits 10 node.index.toNat ++ " [label=".toList) ++ '"' :: behind := by
      rw [toList_nodeLine]
      simp only [List.append_assoc]
      rfl
    rw [hline, List.dropWhile_append_of_pos hfront]
    rfl
  unfold readLabel?
  rw [hdrop, List.tail_cons]
  dsimp only [behind]
  rw [toList_escape, cutLabel?_escaped]
  dsimp only [bind, Option.bind]
  rw [unescape?_escaped]
  rfl

/-- Six lines are there in every drawing. -/
theorem length_lines (g : Graph) : (lines g).length = g.size + g.edgeCount + 6 := by
  have hheader : header.length = 4 := rfl
  rw [lines_eq]
  unfold edgeLines Graph.size
  simp only [List.length_append, List.length_map, List.length_singleton, hheader,
    Graph.length_outgoingEdges]
  omega

/-- The line of an edge stands in a drawing once if the edge is recorded at its source, and not at
all otherwise. -/
theorem count_edgeLine {g : Graph} (h : g.Indexed) (source target : UInt32) :
    (lines g).count (edgeLine source target) = if g.hasOutgoing source target then 1 else 0 := by
  have hheader : header.count (edgeLine source target) = 0 :=
    List.count_eq_zero.2 (edgeLine_not_mem (by decide) source target)
  have hblank : [""].count (edgeLine source target) = 0 :=
    List.count_eq_zero.2 (edgeLine_not_mem (by decide) source target)
  have hend : ["\x7d"].count (edgeLine source target) = 0 :=
    List.count_eq_zero.2 (edgeLine_not_mem (by decide) source target)
  have hnodes : (g.nodes.map nodeLine).count (edgeLine source target) = 0 := by
    refine List.count_eq_zero.2 ?_
    intro hmem
    obtain ⟨node, -, hnode⟩ := List.mem_map.1 hmem
    exact nodeLine_ne_edgeLine node source target hnode
  have hinjective : Function.Injective fun e : Edge => edgeLine e.source e.target := by
    rintro ⟨s, t⟩ ⟨s', t'⟩ heq
    obtain ⟨rfl, rfl⟩ := edgeLine_injective heq
    rfl
  have hedges : (edgeLines g).count (edgeLine source target) =
      g.outgoingEdges.count ⟨source, target⟩ :=
    List.count_map_of_injective _ _ hinjective ⟨source, target⟩
  have hnodup : g.outgoingEdges.Nodup :=
    h.nodup_flatMap Edge.source Edge.target (fun _ _ => rfl) fun _ _ => rfl
  rw [lines_eq, List.count_append, List.count_append, List.count_append, List.count_append, hheader,
    hblank, hend, hnodes, hedges, hnodup.count, Nat.add_zero, Nat.zero_add]
  exact if_congr h.mem_outgoingEdges_iff rfl rfl

end Dot

namespace Graph

open Dot

/-- Cut at its line feeds, a drawing is the header, one line for each node, in order, a blank line,
one line for each edge, taken from its source, in ascending order, and a closing brace. Reading the
label of a node's line gives the label, whatever it holds, and what is left begins with the shape.
An escape replaces three characters one after the other and loses nothing. If the nodes stand at the
places of their indices, an edge has one line if it is recorded at its source and none otherwise. -/
theorem toDot_lines (g : Graph) :
    let lines := (g.toDot.toList.splitOn '\n').map String.ofList
    lines = header ++ g.nodes.map nodeLine ++ [""] ++
        g.nodes.flatMap (fun node => node.outgoing.toList.map (edgeLine node.index)) ++
        ["\x7d"] ∧
      (∀ node ∈ g.nodes, node.outgoing.toList.Pairwise (· < ·)) ∧
      lines.length = g.size + g.edgeCount + 6 ∧
      (∀ node, ∃ behind, readLabel? (nodeLine node).toList =
        some ((label node).toList, ", shape=".toList ++ behind)) ∧
      (∀ text, (escape text).toList =
        replace '\n' ['\\', 'n']
          (replace '"' ['\\', '"'] (replace '\\' ['\\', '\\'] text.toList))) ∧
      Function.Injective escape ∧
      (g.Indexed → ∀ source target,
        lines.count (edgeLine source target) = if g.hasOutgoing source target then 1 else 0) := by
  dsimp only
  rw [splitOn_toDot]
  exact ⟨rfl, fun node _ => node.outgoing.ascending, length_lines g,
    fun node => ⟨_, readLabel?_nodeLine node⟩, toList_escape_eq_replace, escape_injective,
    count_edgeLine⟩

/-- A block whose operands look like the end of a label and an edge, and end in a backslash. -/
def quotedLabel : Graph :=
  let instruction : Instruction :=
    ⟨0x1000, 0, "db", "\"];\n    n0 -> n1;\\", 4, false⟩
  ⟨[{ Node.internal 0 {} ⟨0, instruction⟩ with outgoing := .ofList [1] },
    { Node.external 1 {} 0x2000 with incoming := .ofList [0] }]⟩

theorem toDot_lines_quotedLabel :
    let lines := (quotedLabel.toDot.toList.splitOn '\n').map String.ofList
    quotedLabel.Indexed ∧ lines.length = 9 ∧ lines.count "    n0 -> n1;" = 1 ∧
      lines.count "    n1 -> n0;" = 0 := by
  have hindexed : quotedLabel.Indexed := by
    unfold Indexed
    decide
  obtain ⟨-, -, hlength, -, -, -, hcount⟩ := toDot_lines quotedLabel
  refine ⟨hindexed, hlength, ?_, ?_⟩
  · exact hcount hindexed 0 1
  · exact hcount hindexed 1 0

end Graph

end TraceGraph
