import FlowAtlas.Diagram.Chains
import FlowAtlas.Inventory.Document
import FlowAtlas.Proofs.Chain.Dispatches
import FlowAtlas.Proofs.Json.Occurrence
/-! The names of chains are put together from texts of the inventory: full names and methods of roots, names of
senders and commands. What stands between them is in no opening of a comment, so a name opens one only where such a
text does. -/
namespace FlowAtlas

open Json (commentOpening OpensComment)

open Json (fieldSubset itemSubset textField textsField)

section

variable {inv : Inventory}

theorem Element.inDocument {e : Element} {more : List (String × Json)} :
    [e.name, e.fullName] ⊆ (Json.object (e.fields ++ more)).words := by
  simp only [List.cons_subset, List.nil_subset, and_true]
  exact ⟨textField Field.name.wire (by simp [fields]), textField Field.fullName.wire (by simp [fields])⟩

theorem Controller.inDocument {c : Controller} (listed : c ∈ inv.controllers) : c.fullName ∈ inv.toJson.words :=
  fieldSubset Field.controllers.wire (by simp) (itemSubset Controller.toJson listed (Element.inDocument (by simp)))

theorem Relationship.inDocument {r : Relationship} (listed : r ∈ inv.relationships) :
    [r.sourceType, r.sourceMethod, r.targetType] ⊆ inv.toJson.words := by
  have inside : [r.sourceType, r.sourceMethod, r.targetType] ⊆ r.toJson.words := by
    simp only [List.cons_subset, List.nil_subset, and_true]
    exact ⟨textField Field.sourceType.wire (by simp), textField Field.sourceMethod.wire (by simp),
      textField Field.targetType.wire (by simp)⟩
  exact List.Subset.trans inside (List.Subset.trans (itemSubset Relationship.toJson listed)
    (fieldSubset Field.relationships.wire (by simp)))

theorem Handler.inDocument {h : Handler} (listed : h ∈ inv.handlers) :
    h.name :: h.fullName :: h.commands ⊆ inv.toJson.words := by
  have inside : h.name :: h.fullName :: h.commands ⊆ h.toJson.words := by
    rw [List.cons_subset, List.cons_subset]
    exact ⟨Element.inDocument (by simp), Element.inDocument (by simp),
      textsField Field.handlerCommands.wire (by simp)⟩
  refine List.Subset.trans inside ?_
  rcases List.mem_append.mp listed with domain | integration
  · exact List.Subset.trans (itemSubset Handler.toJson domain)
      (fieldSubset Field.domainEventHandlers.wire (by simp))
  · exact List.Subset.trans (itemSubset Handler.toJson integration)
      (fieldSubset Field.integrationEventHandlers.wire (by simp))

theorem simpleNameOpening {name : String} (inside : commentOpening <:+: (simpleName name).toList) :
    commentOpening <:+: name.toList := by
  rw [simpleName, String.toList_ofList] at inside
  have ending : Text.afterLast '.' name.toList <:+ name.toList := by
    have front := List.takeWhile_prefix (l := name.toList.reverse) (fun c => decide (c ≠ '.'))
    simpa [Text.afterLast] using List.reverse_suffix.mpr front
  exact inside.trans ending.isInfix

theorem Key.shownOpening {k : Key} (inside : commentOpening <:+: k.simpleName.toList) :
    OpensComment [k.typeName, k.method] := by
  rw [Key.simpleName] at inside
  split at inside
  · exact ⟨k.typeName, by simp, simpleNameOpening inside⟩
  · have split : (FlowAtlas.simpleName k.typeName ++ "." ++ k.method).toList =
        (FlowAtlas.simpleName k.typeName).toList ++ '.' :: k.method.toList := by simp
    rw [split, Json.openingApart (by decide)] at inside
    rcases inside with type | method
    · exact ⟨k.typeName, by simp, simpleNameOpening type⟩
    · exact ⟨k.method, by simp, method⟩

theorem arrowOpening {sender command : String} (inside : commentOpening <:+: (sender ++ " -> " ++ command).toList) :
    OpensComment [sender, command] := by
  have split : (sender ++ " -> " ++ command).toList = sender.toList ++ ' ' :: '-' :: '>' :: ' ' :: command.toList := by
    simp
  rw [split, Json.openingApart (by decide), Json.openingSkips (by simp [commentOpening]),
    Json.openingFirst (by decide), Json.openingFirst (by decide)] at inside
  rcases inside with first | second
  · exact ⟨sender, by simp, first⟩
  · exact ⟨command, by simp, second⟩

namespace Inventory

theorem rootWords {root : Key} (mem : root ∈ inv.roots) :
    [root.typeName, root.method] ⊆ entryMethod :: inv.toJson.words := by
  have given := (List.mem_filter.mp (Selection.firstsMem.mp mem)).1
  rw [List.cons_subset, List.cons_subset]
  rcases List.mem_append.mp given with sends | idle
  · obtain ⟨c, listed, within⟩ := List.mem_flatMap.mp sends
    obtain ⟨r, out, rfl⟩ := List.mem_map.mp within
    have method := Relationship.inDocument (memOutgoingOf.mp out).1
    exact ⟨List.mem_cons_of_mem _ (Controller.inDocument listed), List.mem_cons_of_mem _ (method (by simp)),
      List.nil_subset _⟩
  · obtain ⟨h, kept, rfl⟩ := List.mem_map.mp idle
    have handled := Handler.inDocument (List.mem_filter.mp kept).1
    exact ⟨List.mem_cons_of_mem _ (handled (by simp)), List.mem_cons_self, List.nil_subset _⟩

def chainNames (inv : Inventory) : List String := (inv.chainFigures ++ inv.commandChainFigures).map (·.name)

theorem rootOpening {root : Key} (mem : root ∈ inv.roots) (inside : commentOpening <:+: root.simpleName.toList) :
    OpensComment inv.toJson.words := by
  have opens := (Key.shownOpening inside).mono (rootWords mem)
  rw [Json.opensCons] at opens
  exact opens.resolve_left (by decide)

theorem dispatchOpening {d : Dispatch} (mem : d ∈ inv.dispatches) (inside : commentOpening <:+: d.name.toList) :
    OpensComment inv.toJson.words := by
  rw [dispatchesGathered] at mem
  rcases List.mem_append.mp (List.mem_of_find?_eq_some (Selection.firstsFirst mem)) with sent | handled
  · obtain ⟨r, listed, rfl⟩ := List.mem_map.mp sent
    have known := Relationship.inDocument (List.mem_filter.mp (inv.memSentBySender.mp listed)).1
    obtain ⟨w, part, opens⟩ := arrowOpening inside
    rcases List.mem_pair.mp part with rfl | rfl
    · exact ⟨r.sourceType, known (by simp), simpleNameOpening opens⟩
    · exact ⟨r.targetType, known (by simp), simpleNameOpening opens⟩
  · obtain ⟨h, listed, within⟩ := List.mem_flatMap.mp handled
    obtain ⟨c, sends, rfl⟩ := List.mem_map.mp within
    have known := Handler.inDocument (List.mem_append_right inv.domainEventHandlers listed)
    obtain ⟨w, part, opens⟩ := arrowOpening inside
    rcases List.mem_pair.mp part with rfl | rfl
    · exact ⟨h.name, known (by simp), opens⟩
    · exact ⟨c, known (by simp [sends]), simpleNameOpening opens⟩

theorem chainNamesOpening (opens : OpensComment inv.chainNames) : OpensComment inv.toJson.words := by
  obtain ⟨name, mem, inside⟩ := opens
  obtain ⟨figure, drawn, rfl⟩ := List.mem_map.mp mem
  rcases List.mem_append.mp drawn with chain | command
  · obtain ⟨c, built, rfl⟩ := List.mem_map.mp chain
    obtain ⟨root, start, rfl⟩ := List.mem_map.mp built
    exact rootOpening start inside
  · obtain ⟨c, built, rfl⟩ := List.mem_map.mp command
    obtain ⟨d, given, rfl⟩ := List.mem_map.mp built
    exact dispatchOpening given inside

end Inventory

end

end FlowAtlas
