import FlowAtlas.Proofs.Diagram.Groups
import FlowAtlas.Proofs.Diagram.Whole
/-! Every flowchart is consistent: its edges and class lines refer to nodes that it declares, and nodes share an
identifier only when they stand for one element, or for one key of one chain. -/
namespace FlowAtlas

namespace Diagram

def placedKeys (chains : List Chain) : List (Nat × Key) :=
  chains.zipIdx.flatMap fun (c, place) => c.nodes.map fun key => (place, key)

def placedId (chains : List Chain) (mark : Nat × Key) : String :=
  (numberingAt chains mark.1).idOf ((chains[mark.1]?.map (·.nodes)).getD []) mark.2

def placedNode (ix : Index) (id : String) (mark : Nat × Key) : Statement :=
  keyNode ix (indentation ++ indentation) id mark.2

theorem placedMem {chains : List Chain} {place : Nat} {key : Key} : (place, key) ∈ placedKeys chains ↔
    ∃ c, chains[place]? = some c ∧ key ∈ c.nodes := by
  constructor
  · intro mem
    obtain ⟨⟨c, other⟩, listed, here⟩ := List.mem_flatMap.mp mem
    obtain ⟨_, node, same⟩ := List.mem_map.mp here
    cases same
    exact ⟨c, List.mem_zipIdx_iff_getElem?.mp listed, node⟩
  · rintro ⟨c, here, node⟩
    exact List.mem_flatMap.mpr
      ⟨(c, place), List.mem_zipIdx_iff_getElem?.mpr here, List.mem_map.mpr ⟨key, node, rfl⟩⟩

theorem placedHere {chains : List Chain} {place : Nat} {c : Chain} (here : chains[place]? = some c) (key : Key) :
    placedId chains (place, key) = (numberingAt chains place).idOf c.nodes key := by
  rw [placedId, here]
  rfl

theorem placedNodes (ix : Index) (chains : List Chain) :
    (nodesByPlace ix (indentation ++ indentation) chains).flatten =
      (placedKeys chains).map fun mark => placedNode ix (placedId chains mark) mark := by
  rw [nodesByPlace, ← List.flatMap_def, placedKeys, List.map_flatMap]
  apply List.flatMap_congr
  rintro ⟨c, place⟩ listed
  have here := List.mem_zipIdx_iff_getElem?.mp listed
  simp only [keyNodes, List.map_map]
  apply List.map_congr_left
  intro key _
  rw [Function.comp, placedHere here, placedNode]

theorem groupedConsistent (ix : Index) (chains : List Chain) : (groupedSheet ix chains).Consistent ∧
    (groupedSheet ix chains).StandsFor (placedKeys chains) id (placedNode ix) := by
  obtain ⟨body, parts, draws⟩ := groupedSheetDraws ix chains
  rw [placedNodes] at draws
  rw [parts]
  refine drawnConsistent (fun mark => ix.categoryOf mark.2.typeName) _ _ draws (fun _ _ => rfl) ?_ ?_ ?_
  · rintro id ⟨place, c, here, key, node, same⟩
    exact ⟨(place, key), placedMem.mpr ⟨c, here, node⟩, same.trans (placedHere here key).symm⟩
  · rintro ⟨one, a⟩ first ⟨other, b⟩ second same
    obtain ⟨c, here, node⟩ := placedMem.mp first
    obtain ⟨d, there, far⟩ := placedMem.mp second
    have named : (numberingAt chains one).idOf c.nodes a = (numberingAt chains other).idOf d.nodes b := by
      rw [← placedHere here, ← placedHere there]
      exact same
    obtain rfl := samePlace here there ⟨a, node, rfl⟩ ⟨b, far, named⟩
    obtain rfl := Option.some.inj (here.symm.trans there)
    rw [ChainNumbering.idOfApart node named]
  · intro _ _ category _
    exact coveredByAll category

end Diagram

open Diagram

theorem flowchartsConsistent (inv : Inventory) :
    (inv.architectureSheet.Consistent ∧
        inv.architectureSheet.StandsFor inv.elements Listed.mark Statement.ofElement) ∧
      (inv.commandSheet.Consistent ∧
        inv.commandSheet.StandsFor inv.commandElements Listed.mark Statement.ofElement) ∧
      (inv.eventSheet.Consistent ∧
        inv.eventSheet.StandsFor inv.eventElements Listed.mark Statement.ofElement) ∧
      (∀ n c, (chainSheet inv.index n c).1.Consistent ∧
        (chainSheet inv.index n c).1.StandsFor c.nodes id (keyNode inv.index indentation)) ∧
      ∀ chains, (groupedSheet inv.index chains).Consistent ∧
        (groupedSheet inv.index chains).StandsFor (placedKeys chains) id (placedNode inv.index) := by
  refine ⟨?_, ?_, ?_, chainSheetConsistent inv.index, groupedConsistent inv.index⟩
  · obtain ⟨body, parts, shows⟩ := inv.architectureShown
    rw [parts]
    exact wholeConsistent _ _ shows fun e _ => coveredByAll e.category
  · obtain ⟨body, n, parts, shows⟩ := inv.commandShown
    rw [parts]
    exact wholeConsistent _ _ shows fun e mem => inv.commandCovered mem
  · obtain ⟨body, n, parts, shows⟩ := inv.eventShown
    rw [parts]
    exact wholeConsistent _ _ shows fun e mem => inv.eventCovered mem

end FlowAtlas
