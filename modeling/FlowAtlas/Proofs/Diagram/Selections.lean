import FlowAtlas.Proofs.Diagram.Blocks
import FlowAtlas.Proofs.Diagram.Lines
/-! Flowcharts of commands and of events as selections. Words in the call type tell which relationships a chart is
about; it declares the elements at which such a relationship ends, and draws those of the relationships that have
both ends. Elements are chosen by the names that are ends, links by the names that were declared. -/
namespace FlowAtlas

def Relationship.About (words : List String) (r : Relationship) : Prop :=
  ∃ word ∈ words, word.toList <:+: r.callType.toList

instance (words : List String) : DecidablePred (Relationship.About words) :=
  fun r => inferInstanceAs (Decidable (∃ word ∈ words, word.toList <:+: r.callType.toList))

namespace Diagram

def Named (elements : List Listed) (name : String) : Prop := ∃ e ∈ elements, e.fullName = name

instance (elements : List Listed) : DecidablePred (Named elements) :=
  fun name => inferInstanceAs (Decidable (∃ e ∈ elements, e.fullName = name))

def rankedId (elements : List Listed) (e : Listed) : String :=
  idMark e.category ++ toString ((elements.map Listed.mark).eraseDups.idxOf e.mark + 1)

def attached? (elements : List Listed) (name : String) : Option String :=
  (elements.find? (·.fullName = name)).map (rankedId elements)

def linkOf? (elements : List Listed) (draw : Relationship → String → String → Statement) (r : Relationship) :
    Option Statement :=
  (attached? elements r.sourceType).bind fun source => (attached? elements r.targetType).map (draw r source)

structure Selects (sheet : Sheet) (elements : List Listed) (drawn : List Relationship)
    (draw : Relationship → String → String → Statement) : Prop where
  nodes : sheet.filter (·.isNode) = elements.map fun e => .ofElement (rankedId elements e) e
  links : (sheet.filter (·.isLink)).map some = drawn.map (linkOf? elements draw)

section

variable {n : Numbering} {elements : List Listed}

theorem rankedIdOf (seen : n.seen = Selection.firsts id (elements.map Listed.mark)) (e : Listed) :
    n.idOf e.mark = rankedId elements e := by
  have instances : instBEqOfDecidableEq = (instBEqProd : BEq (Category × String)) := lawful_beq_subsingleton _ _
  rw [Numbering.idOf, Numbering.idAt, seen, Selection.firstsErases, rankedId, instances]
  rfl

theorem attachedFound (seen : n.seen = Selection.firsts id (elements.map Listed.mark)) (name : String) :
    n.find name = attached? elements name := by
  rw [Numbering.findScan, seen, Selection.firstsFind, List.find?_map, Option.map_map, attached?]
  exact congrArg (fun f => (elements.find? (·.fullName = name)).map f) (funext (rankedIdOf seen))

theorem attachedNamed (elements : List Listed) (name : String) :
    (attached? elements name).isSome = true ↔ Named elements name := by
  rw [attached?, Option.isSome_map, List.find?_isSome, Named]
  simp only [decide_eq_true_eq]

theorem linkEnds? (elements : List Listed) (draw : Relationship → String → String → Statement) (r : Relationship) :
    (linkOf? elements draw r).isSome = true ↔ Named elements r.sourceType ∧ Named elements r.targetType := by
  rw [← attachedNamed, ← attachedNamed, linkOf?]
  cases attached? elements r.sourceType <;> cases attached? elements r.targetType <;> simp

def linksOf (n : Numbering) (calls : List Relationship) (draw : Relationship → String → String → Statement) :
    Sheet :=
  calls.filterMap fun r => (ends n r.sourceType r.targetType).map fun (source, target) => draw r source target

theorem linksSelected (seen : n.seen = Selection.firsts id (elements.map Listed.mark)) (calls : List Relationship)
    (draw : Relationship → String → String → Statement) : (linksOf n calls draw).map some =
      (calls.filter fun r => Named elements r.sourceType ∧ Named elements r.targetType).map
        (linkOf? elements draw) := by
  have link (r : Relationship) : ((ends n r.sourceType r.targetType).map fun (source, target) =>
      draw r source target) = linkOf? elements draw r := by
    rw [ends, attachedFound seen, attachedFound seen, linkOf?]
    cases attached? elements r.sourceType <;> cases attached? elements r.targetType <;> rfl
  have drawn : (fun r => (linkOf? elements draw r).isSome) = fun r =>
      decide (Named elements r.sourceType ∧ Named elements r.targetType) := by
    funext r
    rw [Bool.eq_iff_iff, decide_eq_true_eq, linkEnds?]
  simp only [linksOf, link]
  -- What the list leaves out are the relationships without a link, so the filter can stand in front.
  rw [List.map_filterMap_some_eq_filter_map_isSome, List.filter_map, ← drawn]
  rfl

theorem sheetLinks {body : Sheet} (front : Sheet) {calls : List Relationship}
    {draw : Relationship → String → String → Statement}
    (link : ∀ r source target, (draw r source target).isLink = true)
    (split : body = front ++ linksOf n calls draw ++ [.blank]) (quiet : ∀ s ∈ front, s.isLink = false)
    (heading assignment : String) (classes : List StyleClass) :
    (body ++ body.styleBlock heading classes assignment).filter (·.isLink) = linksOf n calls draw := by
  have block : (body.styleBlock heading classes assignment).filter (·.isLink) = [] := by
    rw [List.filter_eq_nil_iff]
    intro s mem
    obtain ⟨_, rfl⟩ | ⟨_, rfl⟩ | rfl | ⟨_, _, rfl⟩ := styleBlockForms mem <;> simp [Statement.isLink]
  have opening : front.filter (·.isLink) = [] := by
    rw [List.filter_eq_nil_iff]
    intro s mem
    simp [quiet s mem]
  have links : (linksOf n calls draw).filter (·.isLink) = linksOf n calls draw := by
    rw [List.filter_eq_self]
    intro s mem
    obtain ⟨r, _, drawn⟩ := List.mem_filterMap.mp mem
    obtain ⟨⟨source, target⟩, _, rfl⟩ := Option.map_eq_some_iff.mp drawn
    exact link r source target
  rw [List.filter_append, block, List.append_nil, split, List.filter_append, List.filter_append, opening, links,
    List.nil_append]
  exact List.append_nil _

theorem startQuiet {header : String} {s : Statement} (mem : s ∈ Sheet.start header) : s.isLink = false := by
  simp only [Sheet.start, List.mem_cons, List.not_mem_nil, or_false] at mem
  rcases mem with rfl | rfl <;> rfl

theorem elementsQuiet {ids : List (String × Listed)} {s : Statement}
    (mem : s ∈ ids.map fun (id, e) => .ofElement id e) : s.isLink = false := by
  obtain ⟨⟨id, e⟩, _, rfl⟩ := List.mem_map.mp mem
  rfl

theorem sectionsQuiet {n : Numbering} {sections : List Section} {s : Statement}
    (mem : s ∈ (drawSections n sections).1) : s.isLink = false := by
  obtain ⟨_, rfl⟩ | rfl | ⟨_, _, rfl⟩ := sectionForms mem <;> rfl

theorem shownSelected {body : Sheet} (shows : Shows body n elements) (heading assignment : String)
    (classes : List StyleClass) : (body ++ body.styleBlock heading classes assignment).filter (·.isNode) =
      elements.map fun e => .ofElement (rankedId elements e) e := by
  rw [shows.draws.blockNodes]
  apply List.map_congr_left
  intro e _
  rw [rankedIdOf shows.seen]

end

end Diagram

open Diagram

namespace Inventory

section

variable (inv : Inventory)

def EndAbout (words : List String) (name : String) : Prop :=
  ∃ r ∈ inv.relationships, r.About words ∧ (name = r.sourceType ∨ name = r.targetType)

instance (words : List String) : DecidablePred (inv.EndAbout words) := fun name => inferInstanceAs
  (Decidable (∃ r ∈ inv.relationships, r.About words ∧ (name = r.sourceType ∨ name = r.targetType)))

def callsAmong (words : List String) (elements : List Listed) : List Relationship :=
  inv.relationships.filter fun r => r.About words ∧ Named elements r.sourceType ∧ Named elements r.targetType

def commandChoice : List Listed := inv.commandSide.filter fun e => inv.EndAbout ["Command"] e.fullName

def eventChoice : List Listed :=
  (([.domainEvent, .integrationEvent, .domainEventHandler, .integrationEventHandler].flatMap inv.listed).filter
      fun e => inv.EndAbout ["Event", "Handler"] e.fullName) ++
    (inv.integrationEventConverters.filter fun v => inv.EndAbout ["Event", "Handler"] v.domainEventType).map
      fun v => ⟨v.toElement, .integrationEventConverter, false⟩

theorem commandAbout (r : Relationship) : containsText r.callType "Command" = true ↔ r.About ["Command"] := by
  rw [Text.containsIff, Relationship.About, List.exists_mem_cons_iff]
  simp

theorem eventAbout (r : Relationship) :
    (containsText r.callType "Event" || containsText r.callType "Handler") = true ↔
      r.About ["Event", "Handler"] := by
  rw [Bool.or_eq_true, Text.containsIff, Text.containsIff, Relationship.About]
  simp

theorem touchedAbout {calls : List Relationship} {words : List String}
    (about : calls = inv.relationships.filter fun r => r.About words) (name : String) :
    name ∈ touched calls ↔ inv.EndAbout words name := by
  simp only [about, touched, List.mem_flatMap, List.mem_filter, decide_eq_true_eq, List.mem_cons,
    List.not_mem_nil, or_false, EndAbout, and_assoc]

theorem commandCallsAbout : inv.commandCalls = inv.relationships.filter fun r => r.About ["Command"] := by
  apply List.filter_congr
  intro r _
  rw [Bool.eq_iff_iff, commandAbout, decide_eq_true_eq]

theorem eventCallsAbout : inv.eventCalls = inv.relationships.filter fun r => r.About ["Event", "Handler"] := by
  apply List.filter_congr
  intro r _
  rw [Bool.eq_iff_iff, eventAbout, decide_eq_true_eq]

theorem commandChosen : inv.commandElements = inv.commandChoice := by
  simp only [commandElements, touchedElements, inv.touchedAbout inv.commandCallsAbout]
  rfl

theorem eventChosen : inv.eventElements = inv.eventChoice := by
  simp [eventElements, eventSections, touchedElements, touchedConverters,
    inv.touchedAbout inv.eventCallsAbout, eventChoice]

theorem candidateChosen {r : Relationship} (listed : r ∈ inv.relationships) (about : r.About ["Command"])
    {name : String} (isEnd : name = r.sourceType ∨ name = r.targetType) :
    Named inv.commandChoice name ↔ Named inv.commandSide name := by
  constructor
  · rintro ⟨e, chosen, named⟩
    exact ⟨e, (List.mem_filter.mp chosen).1, named⟩
  · rintro ⟨e, candidate, rfl⟩
    exact ⟨e, List.mem_filter.mpr ⟨candidate, decide_eq_true ⟨r, listed, about, isEnd⟩⟩, rfl⟩

theorem commandSheetLinks : inv.commandSheet.filter (·.isLink) =
    linksOf (Numbering.resolveAll {} inv.commandElements).2 inv.commandCalls fun r source target =>
      .call source target (commandCallLabel r.callType) := by
  refine sheetLinks (Sheet.start "flowchart LR" ++
    ((Numbering.resolveAll {} inv.commandElements).1.map fun (id, e) => .ofElement id e) ++ [.blank])
    (fun _ _ _ => rfl) ?_ ?_ _ _ _
  · rw [List.append_assoc _ [Statement.blank]]
    rfl
  · intro s mem
    rcases List.mem_append.mp mem with above | last
    · exact (List.mem_append.mp above).elim startQuiet elementsQuiet
    · rw [List.mem_singleton.mp last]
      rfl

theorem eventSheetLinks : inv.eventSheet.filter (·.isLink) =
    linksOf (drawSections {} inv.eventSections).2 inv.eventCalls fun r source target =>
      .edge source (eventArrow r.callType) target (eventLabel r.callType) := by
  refine sheetLinks (Sheet.start "flowchart TD" ++ (drawSections {} inv.eventSections).1)
    (fun _ _ _ => rfl) ?_ ?_ _ _ _
  · rfl
  · intro s mem
    exact (List.mem_append.mp mem).elim startQuiet sectionsQuiet

theorem commandDrawn : (inv.commandCalls.filter fun r =>
      Named inv.commandChoice r.sourceType ∧ Named inv.commandChoice r.targetType) =
    inv.callsAmong ["Command"] inv.commandSide := by
  rw [commandCallsAbout, List.filter_filter, callsAmong]
  apply List.filter_congr
  intro r listed
  by_cases about : r.About ["Command"]
  -- Only a relationship of the chart makes its ends elements of it.
  · simp only [about, inv.candidateChosen listed about (Or.inl rfl), inv.candidateChosen listed about (Or.inr rfl)]
    simp
  · simp [about]

theorem eventDrawn : (inv.eventCalls.filter fun r =>
      Named inv.eventChoice r.sourceType ∧ Named inv.eventChoice r.targetType) =
    inv.callsAmong ["Event", "Handler"] inv.eventChoice := by
  rw [eventCallsAbout, List.filter_filter, callsAmong]
  apply List.filter_congr
  intro r _
  rw [Bool.eq_iff_iff]
  simp [and_comm]

end

end Inventory

theorem flowchartsSelect (inv : Inventory) :
    Selects inv.commandSheet inv.commandChoice (inv.callsAmong ["Command"] inv.commandSide)
        (fun r source target => .call source target (Inventory.commandCallLabel r.callType)) ∧
      Selects inv.eventSheet inv.eventChoice (inv.callsAmong ["Event", "Handler"] inv.eventChoice)
        (fun r source target => .edge source (Inventory.eventArrow r.callType) target
          (Inventory.eventLabel r.callType)) := by
  refine ⟨⟨?_, ?_⟩, ?_, ?_⟩
  · obtain ⟨body, n, parts, shows⟩ := inv.commandShown
    rw [parts, ← inv.commandChosen, shownSelected shows]
  · have seen := Numbering.resolveAllSeen {} inv.commandElements
    rw [inv.commandSheetLinks, linksSelected seen, inv.commandChosen, inv.commandDrawn]
  · obtain ⟨body, n, parts, shows⟩ := inv.eventShown
    rw [parts, ← inv.eventChosen, shownSelected shows]
  · have seen := sectionsSeen {} inv.eventSections
    rw [inv.eventSheetLinks, linksSelected seen, ← inv.eventDrawn, ← inv.eventChosen, Inventory.eventElements]

end FlowAtlas
