import FolderFlow.Docs.Diagram
import FolderFlow.Proofs.Enforcement

/-!
# The lines of a diagram

A diagram is written line by line, but what stands on an edge is put into its line as it is. So the
diagram has the lines of all that is written on its edges (`Diagram.textLines_render`), and it is
one fenced block with one line for each edge exactly when nothing that is written on an edge has a
newline in it (`Diagram.oneBlock_iff`).
-/

namespace FolderFlow

namespace Diagram

/-! ## Lines of a text -/

/-- What stands between the newlines of a text. -/
def textLines (text : String) : List String :=
  (text.toList.splitOn '\n').map String.ofList

theorem length_splitOn (cs : List Char) : (cs.splitOn '\n').length = cs.count '\n' + 1 := by
  induction cs with
  | nil => rfl
  | cons c cs ih =>
    rw [List.splitOn_cons_eq_if_modifyHead]
    split
    · rename_i h
      rw [beq_iff_eq.mp h, List.count_cons_self, List.length_cons, ih]
    · rename_i h
      rw [List.length_modifyHead, ih, List.count_cons_of_ne (by simpa using h)]

theorem length_textLines (text : String) :
    (textLines text).length = text.toList.count '\n' + 1 := by
  rw [textLines, List.length_map, length_splitOn]

theorem textLines_of_notMem {text : String} (h : '\n' ∉ text.toList) : textLines text = [text] := by
  rw [textLines, List.splitOn_eq_singleton h, List.map_singleton, String.ofList_toList]

theorem splitOn_intercalate_cons (piece : List Char) (pieces : List (List Char)) :
    (['\n'].intercalate (piece :: pieces)).splitOn '\n' =
      (piece :: pieces).flatMap (List.splitOn '\n') := by
  induction pieces generalizing piece with
  | nil => rw [List.intercalate_singleton, List.flatMap_singleton]
  | cons next pieces ih =>
    rw [List.intercalate_cons_cons, List.append_assoc, List.singleton_append,
      List.splitOn_append_cons_self, ih]
    rfl

/-- Texts that are joined by newlines have their lines one after the other. -/
theorem textLines_intercalate_cons (text : String) (texts : List String) :
    textLines ("\n".intercalate (text :: texts)) = (text :: texts).flatMap textLines := by
  rw [textLines, String.toList_intercalate, List.map_cons]
  have hnewline : "\n".toList = ['\n'] := rfl
  rw [hnewline, splitOn_intercalate_cons, ← List.map_cons, List.flatMap_map, List.map_flatMap]
  rfl

/-- Each text has a line, and each newline in it makes one line more. -/
theorem length_flatMap_textLines (texts : List String) : (texts.flatMap textLines).length =
    texts.length + (texts.flatMap String.toList).count '\n' := by
  induction texts with
  | nil => rfl
  | cons text texts ih =>
    rw [List.flatMap_cons, List.length_append, length_textLines, ih, List.length_cons,
      List.flatMap_cons, List.count_append]
    omega

end Diagram

/-! ## Lines of edges -/

/-- The text is what a diagram writes on the edge: the label, or else the description, unless that
is blank. -/
def EdgeOptions.Carries (o : EdgeOptions) (text : String) : Prop :=
  (o.label = some text ∨ o.label = none ∧ o.description = some text) ∧ ¬ Text.IsBlank text

theorem EdgeOptions.diagramLabel_eq_some_iff {o : EdgeOptions} {text : String} :
    o.diagramLabel = some text ↔ o.Carries text := by
  unfold diagramLabel Carries
  rw [Option.filter_eq_some_iff]
  cases o.label <;> simp

namespace Diagram

open EdgeOptions (diagramLabel_eq_some_iff)

/-- The line of an edge, with what is written on it. -/
inductive LineOf (e : Edge) : String → Prop
  | labelled (text : String) : e.options.Carries text →
      LineOf e ("  " ++ e.source ++ " -- " ++ text ++ " --> " ++ e.target)
  | bare : (∀ text, ¬ e.options.Carries text) → LineOf e ("  " ++ e.source ++ " --> " ++ e.target)

/-- Neither the folders of the edge nor what is written on it has a newline. -/
structure OnOneLine (e : Edge) : Prop where
  source : '\n' ∉ e.source.toList
  target : '\n' ∉ e.target.toList
  label : ∀ text, e.options.Carries text → '\n' ∉ text.toList

variable {flow : Flow} {e : Edge} {line : String}

theorem lineOf_edgeLine (e : Edge) : LineOf e (edgeLine e) := by
  unfold edgeLine
  split
  · rename_i text h
    exact .labelled text (diagramLabel_eq_some_iff.mp h)
  · rename_i h
    refine .bare fun text hcarries => ?_
    rw [diagramLabel_eq_some_iff.mpr hcarries] at h
    exact Option.some_ne_none text h

/-- What stands around the folders and the label has no newline of its own. -/
theorem onOneLine_iff : OnOneLine e ↔ '\n' ∉ (edgeLine e).toList := by
  have hparts : OnOneLine e ↔ '\n' ∉ e.source.toList ∧ '\n' ∉ e.target.toList ∧
      ∀ text, e.options.diagramLabel = some text → '\n' ∉ text.toList := by
    simp only [diagramLabel_eq_some_iff]
    exact ⟨fun h => ⟨h.source, h.target, h.label⟩, fun h => ⟨h.1, h.2.1, h.2.2⟩⟩
  have hindent : '\n' ∉ "  ".toList := by decide
  have hdashes : '\n' ∉ " -- ".toList := by decide
  have harrow : '\n' ∉ " --> ".toList := by decide
  rw [hparts]
  unfold edgeLine
  cases e.options.diagramLabel with
  | none =>
    simp only [String.toList_append, List.mem_append, hindent, harrow, false_or, or_false, not_or,
      reduceCtorEq, false_imp_iff, implies_true, and_true]
  | some text =>
    simp only [String.toList_append, List.mem_append, hindent, hdashes, harrow, false_or, or_false,
      not_or, Option.some.injEq, forall_eq']
    tauto

/-! ## Fences -/

/-- Three backticks with nothing but white space around them: what closes a block. -/
def IsFence (line : String) : Prop :=
  ∃ before after, Text.IsBlank before ∧ Text.IsBlank after ∧ line = before ++ "```" ++ after

theorem IsFence.white_or_backtick (h : IsFence line) :
    ∀ c ∈ line.toList, Text.isWhiteSpace c = true ∨ c = '\x60' := by
  obtain ⟨before, after, hbefore, hafter, rfl⟩ := h
  intro c hc
  rw [String.toList_append, String.toList_append, List.mem_append, List.mem_append] at hc
  rcases hc with (hc | hc) | hc
  · exact Or.inl (hbefore c hc)
  · exact Or.inr (by simpa using hc)
  · exact Or.inl (hafter c hc)

/-- The arrow in the line of an edge is no part of a fence. -/
theorem not_isFence_edgeLine (e : Edge) : ¬ IsFence (edgeLine e) := by
  intro h
  have harrow : '>' ∈ (edgeLine e).toList := by
    unfold edgeLine
    split <;> simp [String.toList_append]
  exact absurd (h.white_or_backtick '>' harrow) (by decide)

theorem not_isFence_flowchart : ¬ IsFence "flowchart TD" := fun h =>
  absurd (h.white_or_backtick 'f' (by decide)) (by decide)

/-! ## Lines of a diagram -/

theorem textLines_render (flow : Flow) : textLines (render flow) =
    "```mermaid" :: "flowchart TD" ::
      ((flow.edges.map edgeLine).flatMap textLines ++ ["```"]) := by
  have hfixed : ∀ text ∈ ["```mermaid", "flowchart TD", "```"], textLines text = [text] := by
    intro text htext
    refine textLines_of_notMem ?_
    simp only [List.mem_cons, List.not_mem_nil, or_false] at htext
    rcases htext with rfl | rfl | rfl <;> decide
  have hlines : lines flow =
      "```mermaid" :: "flowchart TD" :: (flow.edges.map edgeLine ++ ["```"]) := rfl
  rw [render, hlines, textLines_intercalate_cons, List.flatMap_cons, List.flatMap_cons,
    List.flatMap_append, List.flatMap_singleton, hfixed _ (by simp), hfixed _ (by simp),
    hfixed _ (by simp)]
  rfl

theorem length_textLines_render (flow : Flow) : (textLines (render flow)).length =
    flow.edges.length + 3 + ((flow.edges.map edgeLine).flatMap String.toList).count '\n' := by
  rw [textLines_render, List.length_cons, List.length_cons, List.length_append,
    length_flatMap_textLines, List.length_map, List.length_singleton]
  omega

theorem textLines_render_of_onOneLine (h : ∀ e ∈ flow.edges, OnOneLine e) :
    textLines (render flow) =
      "```mermaid" :: "flowchart TD" :: (flow.edges.map edgeLine ++ ["```"]) := by
  have hlines : (flow.edges.map edgeLine).flatMap textLines = flow.edges.map edgeLine := by
    rw [List.flatMap_map, List.map_eq_flatMap]
    exact List.flatMap_congr fun e he => textLines_of_notMem (onOneLine_iff.mp (h e he))
  rw [textLines_render, hlines]

/-- The lines are a fenced block, with one line for each edge in its place. -/
structure OneBlock (flow : Flow) (lines : List String) : Prop where
  length : lines.length = flow.edges.length + 3
  first : lines[0]? = some "```mermaid"
  second : lines[1]? = some "flowchart TD"
  edge : ∀ i e, flow.edges[i]? = some e → ∃ line, lines[i + 2]? = some line ∧ LineOf e line
  last : lines[flow.edges.length + 2]? = some "```"
  /-- No line but the first and the last may open or close a block. -/
  inside : ∀ i line, lines[i]? = some line → 0 < i → i + 1 < lines.length → ¬ IsFence line

theorem oneBlock_of_onOneLine (h : ∀ e ∈ flow.edges, OnOneLine e) :
    OneBlock flow (textLines (render flow)) := by
  rw [textLines_render_of_onOneLine h]
  have hedge : ∀ (i : Nat) (e : Edge), flow.edges[i]? = some e →
      (flow.edges.map edgeLine ++ ["```"])[i]? = some (edgeLine e) := by
    intro i e he
    have hi : i < (flow.edges.map edgeLine).length := by
      rw [List.length_map]
      exact (List.getElem?_eq_some_iff.mp he).1
    rw [List.getElem?_append_left hi, List.getElem?_map, he, Option.map_some]
  refine ⟨by simp, rfl, rfl, fun i e he => ⟨_, hedge i e he, lineOf_edgeLine e⟩, ?_, ?_⟩
  · simp
  · intro i line hline hfirst hlast
    match i with
    | 0 => exact absurd hfirst (Nat.lt_irrefl 0)
    | 1 =>
      obtain rfl := Option.some.inj hline
      exact not_isFence_flowchart
    | i + 2 =>
      have hi : i < flow.edges.length := by
        simp only [List.length_cons, List.length_append, List.length_map, List.length_nil] at hlast
        omega
      have he := hedge i flow.edges[i] (List.getElem?_eq_getElem hi)
      obtain rfl := Option.some.inj (he.symm.trans hline)
      exact not_isFence_edgeLine _

theorem onOneLine_of_length (h : (textLines (render flow)).length = flow.edges.length + 3) :
    ∀ e ∈ flow.edges, OnOneLine e := by
  intro e he
  rw [length_textLines_render] at h
  have hnone := List.count_eq_zero.mp (Nat.add_eq_left.mp h)
  refine onOneLine_iff.mpr fun hmem => hnone ?_
  exact List.mem_flatMap.mpr ⟨edgeLine e, List.mem_map_of_mem he, hmem⟩

/-- **The lines of a diagram.** The first two lines and the last one are fixed, and between them
stand the lines of all that is written on the edges, in their order; each newline in it makes one
line more. So a diagram is one fenced block with one line for each edge exactly when neither a
folder nor a label that is drawn has a newline. -/
theorem oneBlock_iff (flow : Flow) :
    textLines (render flow) = "```mermaid" :: "flowchart TD" ::
      ((flow.edges.map edgeLine).flatMap textLines ++ ["```"]) ∧
    (textLines (render flow)).length =
      flow.edges.length + 3 + ((flow.edges.map edgeLine).flatMap String.toList).count '\n' ∧
    (OneBlock flow (textLines (render flow)) ↔ ∀ e ∈ flow.edges, OnOneLine e) := by
  refine ⟨textLines_render flow, length_textLines_render flow, ?_⟩
  constructor
  · intro h
    exact onOneLine_of_length h.length
  · exact oneBlock_of_onOneLine

/-- An edge whose label closes the block. -/
def fencedLabel : Config :=
  Config.bare "@" [{ source := "pages", target := "ui", options := { label := some "x\n```\ny" } }]

/-- Two lines more, and the fourth line is a fence. -/
theorem fencedLabel_torn :
    Config.validate fencedLabel.toJson = .ok fencedLabel ∧
    textLines (render fencedLabel.flow) =
      ["```mermaid", "flowchart TD", "  pages -- x", "```", "y --> ui", "```"] ∧
    ¬ OneBlock fencedLabel.flow (textLines (render fencedLabel.flow)) := by
  have hlines : textLines (render fencedLabel.flow) =
      ["```mermaid", "flowchart TD", "  pages -- x", "```", "y --> ui", "```"] := by
    decide
  refine ⟨rfl, hlines, fun h => ?_⟩
  have hlength := h.length
  rw [hlines] at hlength
  exact absurd hlength (by decide)

end Diagram

end FolderFlow
