import FlowAtlas.Proofs.Diagram.ChainEdges
import FlowAtlas.Proofs.Diagram.Whole
import FlowAtlas.Proofs.FlowGraph.Projection
/-! The flowchart of a whole inventory shows its flow graph: a node for each listed element, and the edges of
the graph in their order, each attached where the look-up table of categories says. -/
namespace FlowAtlas

open Diagram

namespace Inventory

def elementId (inv : Inventory) (category : Category) (name : String) : String :=
  (inv.architectureNumbering.resolve category name).1

def nameId (inv : Inventory) (name : String) : Option String :=
  (inv.index.categoryOf name).map fun category => inv.elementId category name

def shownEdge (inv : Inventory) (e : FlowEdge) : Option Statement :=
  match inv.nameId e.source, inv.nameId e.target with
  | some source, some target =>
    some (.edge source (arrowFor e.callType) target (labelFor e.callType e.sourceMethod e.targetMethod))
  | _, _ => none

section

variable (inv : Inventory)

theorem elementSeen {e : Listed} (mem : e ∈ inv.elements) : e.mark ∈ inv.architectureNumbering.seen := by
  rw [architectureSeen, Selection.firstsMem]
  exact List.mem_map_of_mem mem

theorem elementResolved {e : Listed} (mem : e ∈ inv.elements) :
    inv.architectureNumbering.resolve e.category e.fullName =
      (inv.architectureNumbering.idOf e.mark, inv.architectureNumbering) :=
  Numbering.resolveOld (inv.elementSeen mem)

theorem nameFound (name : String) : inv.architectureNumbering.find name = inv.nameId name := by
  rw [Numbering.findScan, architectureSeen, Selection.firstsFind, List.find?_map, nameId, categoryScan,
    Option.map_map, Option.map_map]
  apply Option.map_congr
  intro e found
  have mem : e ∈ inv.elements := List.mem_of_find?_eq_some found
  have named := List.find?_some found
  obtain rfl : e.mark.2 = name := of_decide_eq_true named
  exact (congrArg Prod.fst (inv.elementResolved mem)).symm

theorem endsNamed (source target : String) : ends inv.architectureNumbering source target =
    (inv.nameId source).bind fun a => (inv.nameId target).map fun b => (a, b) := by
  rw [ends, nameFound, nameFound]
  cases inv.nameId source <;> cases inv.nameId target <;> rfl

theorem shownEdgeKnown (e : FlowEdge) : (inv.shownEdge e).isSome =
    (inv.index.isKnown e.source && inv.index.isKnown e.target) := by
  rw [shownEdge, nameId, nameId, Index.isKnown, Index.isKnown]
  cases inv.index.categoryOf e.source <;> cases inv.index.categoryOf e.target <;> rfl

theorem relationshipsShown :
    (inv.relationships.filterMap fun r => (ends inv.architectureNumbering r.sourceType r.targetType).map
        fun (source, target) => Statement.edge source (arrowFor r.callType) target
          (labelFor r.callType r.sourceMethod r.targetMethod)) ++
      (inv.handlerCommands.filterMap fun (handler, command) =>
        (ends inv.architectureNumbering handler command).map fun (source, target) =>
          Statement.edge source CallKind.handlerToCommand.arrow target (CallKind.handlerToCommand.label "" "")) =
      inv.flowEdges.filterMap inv.shownEdge := by
  rw [flowEdges, List.filterMap_append, List.filterMap_map, List.filterMap_map]
  congr 1
  · apply List.filterMap_congr
    intro r _
    simp only [endsNamed, Function.comp, shownEdge]
    cases inv.nameId r.sourceType <;> cases inv.nameId r.targetType <;> rfl
  · apply List.filterMap_congr
    rintro ⟨handler, command⟩ _
    simp only [endsNamed, Function.comp, shownEdge]
    cases inv.nameId handler <;> cases inv.nameId command <;> rfl

def architectureBody : Sheet :=
  Sheet.start "flowchart TD" ++ (drawSections {} inv.architectureSections).1 ++
    .comment indentation "Relationships" :: inv.flowEdges.filterMap inv.shownEdge ++ [.blank]

theorem architectureParts : inv.architectureSheet =
    inv.architectureBody ++ inv.architectureBody.styleBlock "Styles" StyleClass.all "" := by
  have regrouped (a b c d : Sheet) (s : Statement) : a ++ s :: (b ++ c) ++ d = a ++ s :: b ++ c ++ d := by
    simp
  rw [architectureBody, ← relationshipsShown, regrouped]
  rfl

theorem shownEdgesEdges {s : Statement} (mem : s ∈ inv.flowEdges.filterMap inv.shownEdge) : s.isEdge = true := by
  obtain ⟨e, _, shown⟩ := List.mem_filterMap.mp mem
  unfold shownEdge at shown
  split at shown
  · cases shown
    rfl
  · cases shown

theorem architectureSheetEdges :
    inv.architectureSheet.filter (·.isEdge) = inv.flowEdges.filterMap inv.shownEdge := by
  have sections : (drawSections {} inv.architectureSections).1.filter (·.isEdge) = [] := by
    rw [List.filter_eq_nil_iff]
    intro s mem
    obtain ⟨_, rfl⟩ | rfl | ⟨_, _, rfl⟩ := sectionForms mem <;> simp [Statement.isEdge, Statement.ofElement]
  have edges : (inv.flowEdges.filterMap inv.shownEdge).filter (·.isEdge) = inv.flowEdges.filterMap inv.shownEdge :=
    List.filter_eq_self.mpr fun s mem => inv.shownEdgesEdges mem
  rw [architectureParts, List.filter_append, styleBlockEdges, List.append_nil, architectureBody]
  simp [Sheet.start, sections, edges]

theorem architectureSheetNodes : inv.architectureSheet.filter (·.isNode) =
    inv.elements.map fun e => .ofElement (inv.elementId e.category e.fullName) e := by
  obtain ⟨body, parts, shows⟩ := inv.architectureShown
  rw [parts, shows.draws.blockNodes]
  apply List.map_congr_left
  intro e mem
  rw [elementId, inv.elementResolved mem]

theorem graphEdgesShown : (inv.architectureSheet.filter (·.isEdge)).map some =
    inv.flowGraph.edges.map inv.shownEdge := by
  have known : (fun e => inv.index.isKnown e.source && inv.index.isKnown e.target) =
      fun e => (inv.shownEdge e).isSome := by
    funext e
    exact (inv.shownEdgeKnown e).symm
  rw [architectureSheetEdges, flowEdgesKept, known]
  induction inv.flowEdges with
  | nil => rfl
  | cons e rest ih =>
    cases shown : inv.shownEdge e with
    | none => simpa [shown] using ih
    | some s => simpa [shown] using ih

end

end Inventory

theorem architectureShowsGraph (inv : Inventory) :
    (∀ name, (inv.flowGraph.node? name).isSome = inv.index.isKnown name ∧
      (inv.flowGraph.node? name).map (·.category) = inv.index.categoryOf name ∧
      inv.architectureNumbering.find name = inv.nameId name) ∧
      inv.architectureSheet.filter (·.isNode) =
        inv.elements.map (fun e => .ofElement (inv.elementId e.category e.fullName) e) ∧
      (∀ e ∈ inv.elements,
        (inv.architectureNumbering.resolve e.category e.fullName).2 = inv.architectureNumbering) ∧
      (inv.architectureSheet.filter (·.isEdge)).map some = inv.flowGraph.edges.map inv.shownEdge := by
  refine ⟨fun name => ⟨?_, ?_, ?_⟩, ?_, fun e mem => ?_, ?_⟩
  · exact inv.flowNodeKnown name
  · exact inv.flowNodeCategory name
  · exact inv.nameFound name
  · exact inv.architectureSheetNodes
  · rw [inv.elementResolved mem]
  · exact inv.graphEdgesShown

def clashInventory : Inventory where
  controllers := [⟨⟨"Shop", "Shop"⟩, []⟩]
  commands := [⟨"Order", "Order"⟩]
  domainEvents := [⟨"Order", "Order"⟩]
  relationships :=
    [⟨"Shop", "Post", "Order", "", "MethodToCommand"⟩,
      ⟨"Order", "", "Ghost", "haunt", "CommandToAggregateMethod"⟩,
      ⟨"Order", "", "Order", "", "MethodToDomainEvent"⟩]

theorem clashAttached : ⟨⟨"Order", "Order"⟩, .domainEvent, false⟩ ∈ clashInventory.elements ∧
    (clashInventory.architectureNumbering.resolve .domainEvent "Order").2 =
      clashInventory.architectureNumbering ∧
    clashInventory.architectureNumbering.find "Order" = some "CMD2" ∧
    (clashInventory.architectureSheet.filter (·.isEdge)).map some =
      [some (.edge "C1" "-->" "CMD2" "Post Send"), some (.edge "CMD2" "-->" "CMD2" "publishes")] := by
  obtain ⟨names, -, resolved, edges⟩ := architectureShowsGraph clashInventory
  have listed : ⟨⟨"Order", "Order"⟩, .domainEvent, false⟩ ∈ clashInventory.elements := by decide
  refine ⟨listed, resolved _ listed, (names "Order").2.2.trans ?_, edges.trans ?_⟩
  · decide +kernel
  · decide +kernel

end FlowAtlas
