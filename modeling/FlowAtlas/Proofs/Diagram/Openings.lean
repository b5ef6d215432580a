import FlowAtlas.Diagram.Kind
import FlowAtlas.Proofs.Diagram.Blocks
import FlowAtlas.Proofs.Diagram.Lines
import FlowAtlas.Proofs.Json.Occurrence
/-! Diagrams never open a comment. A flowchart has no angle at all, since its labels lose theirs; a class diagram has
them around its stereotypes only. So the names and methods of an inventory bring none in. -/
namespace FlowAtlas

open Json (commentOpening)

namespace Diagram

theorem anglelessUnopened {s : String} (free : '<' ∉ s.toList) : ¬ commentOpening <:+: s.toList :=
  fun inside => free (inside.subset (by decide))

theorem linesOpening (lines : List String) :
    commentOpening <:+: (joinTexts "\n" lines ++ "\n").toList ↔ ∃ l ∈ lines, commentOpening <:+: l.toList := by
  have feed : "\n" = String.singleton '\n' := by decide
  rw [feed, String.toList_append, String.toList_singleton, Json.openingLast (by decide),
    Text.joinedInfix (by decide) Json.openingSome]

theorem Sheet.Drawn.unopened {sheet : Sheet} {frame assigned : Nat} (drawn : sheet.Drawn frame assigned) :
    ¬ commentOpening <:+: sheet.text.toList := by
  rw [Sheet.text, linesOpening]
  rintro ⟨line, mem, inside⟩
  obtain ⟨s, listed, rfl⟩ := List.mem_map.mp mem
  exact anglelessUnopened (drawn.untagged s listed) inside

theorem identifierAngleless (name : String) : '<' ∉ (classIdentifier name).toList := by
  rw [classIdentifier, String.toList_ofList, List.mem_map]
  rintro ⟨c, -, same⟩
  split at same
  · cases same
  · rename_i kept
    subst same
    exact kept rfl

theorem ClassLink.lineUnopened {ix : Index} {r : Relationship} {l : ClassLink} (link : of? ix r = some l) :
    ¬ commentOpening <:+: l.line.toList := by
  rw [of?, Option.ite_none_right_eq_some, Option.some.injEq] at link
  obtain ⟨-, rfl⟩ := link
  have arrow : '<' ∉ (arrowFor r.callType).toList := by
    unfold arrowFor
    split <;> decide
  apply anglelessUnopened
  simp [line, identifierAngleless, arrow]

def stereotypes : List String := ["Controller", "Command", "AggregateRoot", "Entity"]

theorem ClassBlock.linesUnopened {b : ClassBlock} (identified : '<' ∉ b.identifier.toList)
    (known : b.stereotype ∈ stereotypes) {line : String} (mem : line ∈ b.lines) :
    ¬ commentOpening <:+: line.toList := by
  simp only [lines, List.cons_append, List.mem_cons, List.mem_append, List.mem_map, List.mem_ite_nil_right,
    List.not_mem_nil, or_false] at mem
  rcases mem with rfl | rfl | ((⟨m, -, rfl⟩ | ⟨-, rfl⟩) | rfl | rfl)
  · apply anglelessUnopened
    simp [identified]
  · simp only [stereotypes, List.mem_cons, List.not_mem_nil, or_false] at known
    rcases known with same | same | same | same <;> rw [same] <;> decide
  · apply anglelessUnopened
    simp [escapedFree (d := '<') (by decide)]
  · decide
  · decide
  · decide

end Diagram

namespace Inventory

open Diagram

theorem blockShown {inv : Inventory} {limit : Int} {b : ClassBlock} (mem : b ∈ inv.classBlocks limit) :
    '<' ∉ b.identifier.toList ∧ b.stereotype ∈ stereotypes := by
  have shown : ∀ name stereotype methods, stereotype ∈ stereotypes →
      '<' ∉ (ClassBlock.of limit name stereotype methods).identifier.toList ∧
        (ClassBlock.of limit name stereotype methods).stereotype ∈ stereotypes :=
    fun name _ _ known => ⟨identifierAngleless name, known⟩
  simp only [classBlocks, List.mem_append, List.mem_map] at mem
  rcases mem with (⟨c, -, rfl⟩ | ⟨c, -, rfl⟩) | ⟨e, -, rfl⟩
  · exact shown _ _ _ (by decide)
  · exact shown _ _ _ (by decide)
  · apply shown
    split <;> decide

theorem classDiagramUnopened (inv : Inventory) (limit : Int) :
    ¬ commentOpening <:+: (inv.classDiagram limit).toList := by
  rw [classDiagramLines, linesOpening]
  rintro ⟨line, mem, inside⟩
  rcases List.mem_append.mp mem with shown | linked
  · rcases List.mem_cons.mp shown with rfl | rest
    · exact absurd inside (by decide)
    · rcases List.mem_cons.mp rest with rfl | drawn
      · exact absurd inside (by decide)
      · obtain ⟨b, listed, within⟩ := List.mem_flatMap.mp drawn
        obtain ⟨identified, known⟩ := blockShown listed
        exact ClassBlock.linesUnopened identified known within inside
  · obtain ⟨l, drawn, rfl⟩ := List.mem_map.mp (Selection.firstsMem.mp linked)
    obtain ⟨r, -, link⟩ := List.mem_filterMap.mp drawn
    exact ClassLink.lineUnopened link inside

theorem diagramUnopened (inv : Inventory) (limit : Int) (kind : DiagramKind) :
    ¬ commentOpening <:+: (inv.diagram limit kind).toList := by
  cases kind with
  | architecture => exact inv.architectureLined.unopened
  | command => exact inv.commandLined.unopened
  | event => exact inv.eventLined.unopened
  | classes => exact inv.classDiagramUnopened limit
  | multiChain => exact (groupedSheetLined _ _).unopened

theorem chainFigureUnopened (ix : Index) (c : Chain) : ¬ commentOpening <:+: (chainFigure ix c).text.toList :=
  (chainSheetLined ix {} c).unopened

end Inventory

end FlowAtlas
