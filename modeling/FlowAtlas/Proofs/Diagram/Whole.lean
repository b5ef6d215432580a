import FlowAtlas.Proofs.Diagram.Numbering
import FlowAtlas.Proofs.Diagram.Parts
/-! Sheets of a whole inventory. Their nodes are those of some elements, their edges the ones that find both
ends by name among these elements. -/
namespace FlowAtlas

namespace Diagram

def Numbering.Finds (n : Numbering) (id : String) : Prop := ∃ name, n.find name = some id

def elementNodes (n : Numbering) (elements : List Listed) : Sheet :=
  elements.map fun e => .ofElement (n.idOf e.mark) e

structure Shows (body : Sheet) (n : Numbering) (elements : List Listed) : Prop where
  seen : n.seen = Selection.firsts id (elements.map Listed.mark)
  draws : Draws body (elementNodes n elements) n.Finds

section

variable {n : Numbering}

theorem elementsDrawn {ids : List (String × Listed)} {elements : List Listed} (known : String → Prop)
    (given : ids = elements.map fun e => (n.idOf e.mark, e)) :
    Draws (ids.map fun (id, e) => .ofElement id e) (elementNodes n elements) known := by
  have nodes : ids.map (fun (id, e) => .ofElement id e) = elementNodes n elements := by
    rw [given, List.map_map]
    rfl
  rw [nodes]
  apply Draws.declares
  intro s mem
  obtain ⟨e, _, rfl⟩ := List.mem_map.mp mem
  rfl

theorem partsDrawn (n : Numbering) (parts : List Section) (known : String → Prop) :
    Draws (drawSections n parts).1 (elementNodes (drawSections n parts).2 (parts.flatMap (·.elements))) known := by
  constructor
  case nodes => exact sectionsDrawn n parts
  case bare =>
    intro s mem
    obtain ⟨_, rfl⟩ | rfl | ⟨_, _, rfl⟩ := sectionForms mem <;> rfl
  case joins =>
    intro s mem id joined
    obtain ⟨_, rfl⟩ | rfl | ⟨_, _, rfl⟩ := sectionForms mem <;> cases joined

theorem endsFound {source target : String} {ids : String × String} (found : ends n source target = some ids) :
    n.find source = some ids.1 ∧ n.find target = some ids.2 := by
  unfold ends at found
  split at found
  · rename_i a b first second
    cases found
    exact ⟨first, second⟩
  · cases found

theorem foundLinks {source target : String} {make : String × String → Statement} {s : Statement}
    (plain : ∀ ids, (make ids).isNode = false ∧ (make ids).styled = [] ∧ (make ids).joins = [ids.1, ids.2])
    (drawn : (ends n source target).map make = some s) :
    s.isNode = false ∧ s.styled = [] ∧ ∀ id ∈ s.joins, n.Finds id := by
  obtain ⟨ids, found, rfl⟩ := Option.map_eq_some_iff.mp drawn
  obtain ⟨first, second⟩ := endsFound found
  obtain ⟨node, bare, joins⟩ := plain ids
  refine ⟨node, bare, ?_⟩
  intro id mem
  rw [joins, List.mem_cons, List.mem_singleton] at mem
  rcases mem with rfl | rfl
  · exact ⟨source, first⟩
  · exact ⟨target, second⟩

theorem foundEdges {ρ : Type} {rows : List ρ} {draw : ρ → Option Statement}
    (linked : ∀ r s, draw r = some s → s.isNode = false ∧ s.styled = [] ∧ ∀ id ∈ s.joins, n.Finds id) :
    Draws (rows.filterMap draw) [] n.Finds := by
  apply Draws.links
  intro s mem
  obtain ⟨r, _, drawn⟩ := List.mem_filterMap.mp mem
  exact linked r s drawn

theorem wholeConsistent (heading assignment : String) {body : Sheet} {elements : List Listed}
    {classes : List StyleClass} (shows : Shows body n elements)
    (covered : ∀ e ∈ elements, StyleClass.ofCategory e.category ∈ classes) :
    Sheet.Consistent (body ++ body.styleBlock heading classes assignment) ∧
      Sheet.StandsFor (body ++ body.styleBlock heading classes assignment) elements Listed.mark .ofElement := by
  have declared : ∀ id e, (Statement.ofElement id e).node? = some (id, some e.mark.1) := fun _ _ => rfl
  refine drawnConsistent (fun mark => some mark.1) heading assignment shows.draws declared ?_ ?_ ?_
  · rintro id ⟨name, found⟩
    rw [Numbering.findScan, shows.seen, Selection.firstsFind] at found
    obtain ⟨mark, first, rfl⟩ := Option.map_eq_some_iff.mp found
    obtain ⟨e, mem, rfl⟩ := List.mem_map.mp (List.mem_of_find?_eq_some first)
    exact ⟨e, mem, rfl⟩
  · intro a mem b _ same
    apply Numbering.idOfApart _ same
    rw [shows.seen, Selection.firstsMem]
    exact List.mem_map_of_mem mem
  · intro e mem category same
    cases same
    exact covered e mem

end

end Diagram

namespace Inventory

open Diagram

theorem touchedCategory {inv : Inventory} {names : List String} {categories : List Category} {e : Listed}
    (mem : e ∈ touchedElements inv names categories) : e.category ∈ categories := by
  obtain ⟨category, listed, inside⟩ := List.mem_flatMap.mp (List.mem_filter.mp mem).1
  rwa [listedCategory inside]

section

variable (inv : Inventory)

def architectureNumbering : Numbering := (drawSections {} inv.architectureSections).2

theorem architectureElements : inv.architectureSections.flatMap (·.elements) = inv.elements := by
  simp [architectureSections, elements, Category.all]

theorem architectureSeen : inv.architectureNumbering.seen = Selection.firsts id (inv.elements.map Listed.mark) := by
  rw [architectureNumbering, sectionsSeen, architectureElements]
  rfl

theorem architectureShown : ∃ body : Sheet,
    inv.architectureSheet = body ++ body.styleBlock "Styles" StyleClass.all "" ∧
      Shows body inv.architectureNumbering inv.elements := by
  have nodes := partsDrawn {} inv.architectureSections inv.architectureNumbering.Finds
  rw [architectureElements] at nodes
  refine ⟨_, rfl, inv.architectureSeen, ?_⟩
  refine ((((Draws.start _).before nodes).after ((Draws.comment _).before ?_)).after ?_).after .blank
  · exact foundEdges fun _ _ drawn => foundLinks (fun _ => ⟨rfl, rfl, rfl⟩) drawn
  · exact foundEdges fun _ _ drawn => foundLinks (fun _ => ⟨rfl, rfl, rfl⟩) drawn

def commandElements : List Listed := touchedElements inv (touched inv.commandCalls) [.controller, .command, .entity]

theorem commandShown : ∃ (body : Sheet) (n : Numbering),
    inv.commandSheet = body ++ body.styleBlock "Styles" [.controller, .command, .entity] "" ∧
      Shows body n inv.commandElements := by
  have nodes := elementsDrawn (Numbering.resolveAll {} inv.commandElements).2.Finds
    (Numbering.resolveAllIds {} inv.commandElements)
  refine ⟨_, _, rfl, Numbering.resolveAllSeen {} inv.commandElements, ?_⟩
  refine (((Draws.start _).before nodes).after (Draws.blank.before ?_)).after .blank
  exact foundEdges fun _ _ drawn => foundLinks (fun _ => ⟨rfl, rfl, rfl⟩) drawn

theorem commandCovered {e : Listed} (mem : e ∈ inv.commandElements) :
    StyleClass.ofCategory e.category ∈ [StyleClass.controller, .command, .entity] := by
  have listed := touchedCategory mem
  simp only [List.mem_cons, List.not_mem_nil, or_false] at listed
  rcases listed with same | same | same <;> rw [same] <;> decide

def eventElements : List Listed := inv.eventSections.flatMap (·.elements)

theorem eventShown : ∃ (body : Sheet) (n : Numbering), inv.eventSheet =
      body ++ body.styleBlock "Styles" [.domainEvent, .integrationEvent, .handler, .converter] "" ∧
      Shows body n inv.eventElements := by
  have nodes := partsDrawn {} inv.eventSections (drawSections {} inv.eventSections).2.Finds
  refine ⟨_, _, rfl, sectionsSeen {} inv.eventSections, ?_⟩
  refine (((Draws.start _).before nodes).after ?_).after .blank
  exact foundEdges fun _ _ drawn => foundLinks (fun _ => ⟨rfl, rfl, rfl⟩) drawn

theorem eventCovered {e : Listed} (mem : e ∈ inv.eventElements) :
    StyleClass.ofCategory e.category ∈ [StyleClass.domainEvent, .integrationEvent, .handler, .converter] := by
  have listed : e.category ∈ [Category.domainEvent, .integrationEvent, .domainEventHandler,
      .integrationEventHandler, .integrationEventConverter] := by
    simp only [eventElements, eventSections, List.flatMap_cons, List.flatMap_nil, List.append_nil,
      List.mem_append] at mem
    rcases mem with domain | integration | handler | converter
    · exact List.mem_append_left [_, _, _, _] (touchedCategory domain)
    · exact List.mem_cons_of_mem _ (List.mem_append_left [_, _, _] (touchedCategory integration))
    · exact List.mem_append_right [_, _] (List.mem_append_left [_] (touchedCategory handler))
    · obtain ⟨v, _, rfl⟩ := List.mem_map.mp converter
      exact List.mem_append_right [_, _, _, _] (List.mem_singleton.mpr rfl)
  simp only [List.mem_cons, List.not_mem_nil, or_false] at listed
  rcases listed with same | same | same | same | same <;> rw [same] <;> decide

end

end Inventory

end FlowAtlas
