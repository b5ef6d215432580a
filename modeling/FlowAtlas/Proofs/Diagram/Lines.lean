import FlowAtlas.Proofs.Diagram.Groups
import FlowAtlas.Proofs.Diagram.Labels
import FlowAtlas.Proofs.Diagram.Whole
/-! Sheets as lines of text. A statement takes the texts of an inventory in escaped form and all else as it is, so
it stays on one line when what it takes as it is does; the frame of a sheet around its nodes, edges and class lines
has a fixed number of lines. -/
namespace FlowAtlas.Diagram

open Text (OneLine)

def Plain (s : String) : Prop := OneLine s ∧ '<' ∉ s.toList

instance (s : String) : Decidable (Plain s) := inferInstanceAs (Decidable (_ ∧ _))

namespace Plain

variable {s t : String}

theorem append (first : Plain s) (second : Plain t) : Plain (s ++ t) := by
  refine ⟨first.1.append second.1, ?_⟩
  rw [String.toList_append, List.mem_append, not_or]
  exact ⟨first.2, second.2⟩

theorem number (n : Nat) : Plain (toString n) := by
  refine ⟨.number n, fun angle => ?_⟩
  cases Text.digitsOnly n _ angle

theorem integer (i : Int) : Plain (toString i) := by
  cases i with
  | ofNat n => exact .number n
  | negSucc n => exact .append (s := "-") (by decide) (.number (n + 1))

theorem joined {parts : List String} (each : ∀ p ∈ parts, Plain p) : Plain (joinTexts "," parts) := by
  refine ⟨.joined fun p mem => (each p mem).1, fun angle => ?_⟩
  have inside : ['<'] <:+: (joinTexts (String.singleton ',') parts).toList := (List.singleton_infix_iff _ _).mpr angle
  obtain ⟨p, mem, here⟩ := (Text.joinedInfix (by decide) (by decide) parts).mp inside
  exact (each p mem).2 ((List.singleton_infix_iff _ _).mp here)

end Plain

theorem escapedPlain (s : String) : Plain (escapeLabel s) := ⟨escapedOneLine s, escapedFree (by decide) s⟩

theorem StyleClass.namePlain (style : StyleClass) : Plain style.name := by
  cases style <;> decide

namespace Statement

def bare : Statement → List String
  | raw text => [text]
  | comment indent text => [indent, text]
  | node indent id _ _ _ => [indent, id]
  | edge source arrow target _ => [source, arrow, target]
  | call source target label => [source, target, label]
  | assign ids _ => ids
  | blank | openGroup _ _ | closeGroup | classDef _ => []

def isLink : Statement → Bool
  | edge .. | call .. => true
  | raw _ | blank | comment .. | node .. | openGroup .. | closeGroup | classDef _ | assign .. => false

def isClassLine : Statement → Bool
  | assign .. => true
  | raw _ | blank | comment .. | node .. | edge .. | call .. | openGroup .. | closeGroup | classDef _ => false

def isFrame : Statement → Bool
  | raw _ | blank | comment .. | openGroup .. | closeGroup | classDef _ => true
  | node .. | edge .. | call .. | assign .. => false

theorem textPlain {s : Statement} (plain : ∀ t ∈ s.bare, Plain t) : Plain s.text := by
  cases s with
  | raw text => exact plain text List.mem_cons_self
  | blank => decide
  | comment indent text =>
    simp only [bare, List.forall_mem_cons] at plain
    exact (plain.1.append (by decide)).append plain.2.1
  | node indent id category label root =>
    simp only [bare, List.forall_mem_cons] at plain
    have shape : Plain ((Shape.of category root).draw label) := by
      refine (Plain.append ?_ (escapedPlain label)).append ?_ <;> cases Shape.of category root <;> decide
    exact (plain.1.append plain.2.1).append shape
  | edge source arrow target label =>
    simp only [bare, List.forall_mem_cons] at plain
    obtain ⟨start, along, finish, _⟩ := plain
    refine (Plain.append ?_ ?_).append finish
    · exact ((Plain.append (by decide) start).append (by decide)).append along
    · split
      · decide
      · exact (Plain.append (by decide) (escapedPlain label)).append (by decide)
  | call source target label =>
    simp only [bare, List.forall_mem_cons] at plain
    obtain ⟨start, finish, labelled, _⟩ := plain
    exact ((((Plain.append (by decide) start).append (by decide)).append labelled).append (by decide)).append finish
  | openGroup number title =>
    exact ((((Plain.append (by decide) (by decide)).append (.number number)).append (by decide)).append
      (escapedPlain title)).append (by decide)
  | closeGroup => decide
  | classDef style =>
    have definition : Plain style.definition := by cases style <;> decide
    exact ((((Plain.append (by decide) (by decide)).append style.namePlain).append (by decide)).append
      definition).append (by decide)
  | assign ids style =>
    exact ((((Plain.append (by decide) (by decide)).append (.joined plain)).append (by decide)).append
      style.namePlain).append (by decide)

end Statement

theorem countKinds (sheet : Sheet) : sheet.length = sheet.countP (·.isFrame) + sheet.countP (·.isNode) +
    sheet.countP (·.isLink) + sheet.countP (·.isClassLine) := by
  induction sheet with
  | nil => rfl
  | cons s rest ih =>
    rw [List.length_cons, ih, List.countP_cons, List.countP_cons, List.countP_cons, List.countP_cons]
    cases s <;> simp [Statement.isFrame, Statement.isNode, Statement.isLink, Statement.isClassLine] <;> omega

/-- A sheet of lines: splitting its text gives back the texts of its statements. Apart from nodes, edges and class
lines it has `frame` lines, and `assigned` more when there are class lines. -/
structure Sheet.Lined (sheet : Sheet) (frame assigned : Nat) : Prop where
  single : ∀ s ∈ sheet, OneLine s.text
  split : sheet.text.toList.splitOn '\n' = sheet.map (fun s => s.text.toList) ++ [[]]
  count : sheet.length = frame + sheet.countP (·.isNode) + sheet.countP (·.isLink) + sheet.countP (·.isClassLine) +
    if sheet.countP (·.isClassLine) = 0 then 0 else assigned

structure Sheet.Drawn (sheet : Sheet) (frame assigned : Nat) : Prop extends Lined sheet frame assigned where
  untagged : ∀ s ∈ sheet, '<' ∉ s.text.toList

structure Framed (part : Sheet) (frame : Nat) : Prop where
  plain : ∀ s ∈ part, ∀ t ∈ s.bare, Plain t
  frames : part.countP (·.isFrame) = frame
  unclassed : part.countP (·.isClassLine) = 0

namespace Framed

variable {a b : Sheet} {first second : Nat}

theorem append (one : Framed a first) (two : Framed b second) : Framed (a ++ b) (first + second) := by
  constructor
  case plain =>
    intro s mem
    exact (List.mem_append.mp mem).elim (one.plain s) (two.plain s)
  case frames => rw [List.countP_append, one.frames, two.frames]
  case unclassed => rw [List.countP_append, one.unclassed, two.unclassed]

theorem resize (one : Framed a first) (same : first = second) : Framed a second := same ▸ one

theorem start (header : String) (plain : Plain header) : Framed (Sheet.start header) 2 :=
  ⟨by simpa [Sheet.start, Statement.bare] using plain, rfl, rfl⟩

theorem blank : Framed [.blank] 1 := ⟨by simp [Statement.bare], rfl, rfl⟩

theorem comment (text : String) (plain : Plain text) : Framed [.comment indentation text] 1 := by
  refine ⟨?_, rfl, rfl⟩
  have indent : Plain indentation := by decide
  simpa [Statement.bare] using ⟨indent, plain⟩

theorem definitions (classes : List StyleClass) : Framed (classes.map .classDef) classes.length := by
  constructor
  case plain =>
    intro s mem
    obtain ⟨style, _, rfl⟩ := List.mem_map.mp mem
    simp [Statement.bare]
  case frames => simp [List.countP_map, Function.comp_def, Statement.isFrame]
  case unclassed => simp [List.countP_map, Function.comp_def, Statement.isClassLine]

theorem drawn (each : ∀ s ∈ a, (s.isNode = true ∨ s.isLink = true) ∧ ∀ t ∈ s.bare, Plain t) : Framed a 0 := by
  have kind : ∀ s : Statement, s.isNode = true ∨ s.isLink = true → s.isFrame = false ∧ s.isClassLine = false := by
    intro s shown
    cases s <;> simp [Statement.isNode, Statement.isLink, Statement.isFrame, Statement.isClassLine] at shown ⊢
  constructor
  case plain => exact fun s mem => (each s mem).2
  case frames =>
    rw [List.countP_eq_zero]
    intro s mem
    simp [(kind s (each s mem).1).1]
  case unclassed =>
    rw [List.countP_eq_zero]
    intro s mem
    simp [(kind s (each s mem).1).2]

end Framed

section

variable {body : Sheet} {frame : Nat}

theorem styledDrawn {id : String} {style : StyleClass} (mem : (id, style) ∈ body.styles) :
    ∃ s ∈ body, id ∈ s.bare := by
  have key : id ∈ body.styles.map (·.1) := List.mem_map.mpr ⟨(id, style), mem, rfl⟩
  rw [Sheet.styles, insertedKeys] at key
  obtain ⟨⟨name, style⟩, entry, rfl⟩ := List.mem_map.mp (Selection.firstsMem.mp key)
  obtain ⟨s, drawn, styled⟩ := List.mem_filterMap.mp entry
  refine ⟨s, drawn, ?_⟩
  cases s with
  | node indent id category label root =>
    cases category <;> cases styled
    exact List.mem_cons_of_mem _ List.mem_cons_self
  | _ => cases styled

theorem assignedDrawn {classes : List StyleClass} {heading assignment : String} {ids : List String}
    {style : StyleClass} (line : .assign ids style ∈ body.styleBlock heading classes assignment) {id : String}
    (mem : id ∈ ids) : ∃ s ∈ body, id ∈ s.bare := by
  have named : (id, style) ∈ Sheet.styled (body.styleBlock heading classes assignment) :=
    List.mem_flatMap.mpr ⟨_, line, List.mem_map.mpr ⟨id, mem, rfl⟩⟩
  have entry := (styleBlockStyled heading assignment classes body).mem_iff.mp named
  exact styledDrawn (List.mem_filter.mp entry).1

def classLines (groups : List (StyleClass × List String)) : Sheet := groups.map fun group => .assign group.2 group.1

theorem classLinesCounted (groups : List (StyleClass × List String)) :
    (classLines groups).countP (·.isFrame) = 0 ∧ (classLines groups).countP (·.isClassLine) = groups.length := by
  simp [classLines, List.countP_map, Function.comp_def, Statement.isFrame, Statement.isClassLine]

theorem styleBlockFramed {heading assignment : String} (titled : Plain heading) (subtitled : Plain assignment)
    (classes : List StyleClass) (sheet : Sheet) : ∃ part groups,
      sheet.styleBlock heading classes assignment = part ++ classLines groups ∧
        Framed part (1 + classes.length + if groups.length = 0 then 0 else if assignment = "" then 1 else 2) := by
  have opening := (Framed.comment heading titled).append (Framed.definitions classes)
  unfold Sheet.styleBlock
  generalize Sheet.styleGroups classes sheet.styles = groups
  cases groups with
  | nil =>
    refine ⟨.comment indentation heading :: classes.map .classDef, [], rfl, ?_⟩
    exact opening
  | cons group rest =>
    have assigned : ¬ (group :: rest).length = 0 := Nat.succ_ne_zero rest.length
    by_cases untitled : assignment = ""
    · refine ⟨.comment indentation heading :: classes.map .classDef ++ [.blank], group :: rest, ?_, ?_⟩
      · simp [untitled, classLines]
      · rw [if_neg assigned, if_pos untitled]
        exact opening.append .blank
    · refine ⟨.comment indentation heading :: classes.map .classDef ++ [.blank, .comment indentation assignment],
        group :: rest, ?_, ?_⟩
      · simp [untitled, classLines]
      · rw [if_neg assigned, if_neg untitled]
        exact opening.append (Framed.blank.append (.comment assignment subtitled))

theorem framedLined (framed : Framed body frame) (some : 0 < frame) (classes : List StyleClass)
    {heading assignment : String} (titled : Plain heading) (subtitled : Plain assignment) {whole assigned : Nat}
    (around : frame + (1 + classes.length) = whole) (more : (if assignment = "" then 1 else 2) = assigned) :
    Sheet.Drawn (body ++ body.styleBlock heading classes assignment) whole assigned := by
  obtain ⟨part, groups, parts, block⟩ := styleBlockFramed titled subtitled classes body
  obtain ⟨unframed, lines⟩ := classLinesCounted groups
  have texts : ∀ s ∈ body ++ body.styleBlock heading classes assignment, Plain s.text := by
    intro s mem
    apply Statement.textPlain
    rcases List.mem_append.mp mem with inside | after
    · exact framed.plain s inside
    · rcases List.mem_append.mp (parts ▸ after) with early | late
      · exact block.plain s early
      · obtain ⟨group, _, rfl⟩ := List.mem_map.mp late
        intro id listed
        obtain ⟨s, drawn, taken⟩ := assignedDrawn after listed
        exact framed.plain s drawn id taken
  refine ⟨?_, fun s mem => (texts s mem).2⟩
  constructor
  case single => exact fun s mem => (texts s mem).1
  case split =>
    have filled : body ≠ [] := by
      rintro rfl
      have none := framed.frames
      rw [List.countP_nil] at none
      omega
    rw [Sheet.text, Text.linesSplit (by simp [filled]), List.map_map]
    · rfl
    · intro line mem
      obtain ⟨s, listed, rfl⟩ := List.mem_map.mp mem
      exact (texts s listed).1
  case count =>
    rw [countKinds, parts, ← around, ← more]
    simp only [List.countP_append, framed.frames, framed.unclassed, block.frames, block.unclassed, unframed, lines,
      Nat.zero_add]
    omega

end

section

variable {n : Numbering}

theorem Numbering.idAtPlain (category : Category) (rank : Nat) : Plain (idAt category rank) := by
  have mark : Plain (idMark category) := by cases category <;> decide
  exact mark.append (.number (rank + 1))

theorem ChainNumbering.idAtPlain (number : Int) : Plain (idAt number) :=
  Plain.append (by decide) (.integer number)

theorem elementsFramed (n : Numbering) (elements : List Listed) :
    Framed ((n.resolveAll elements).1.map fun (id, e) => .ofElement id e) 0 := by
  apply Framed.drawn
  intro s mem
  rw [Numbering.resolveAllIds, List.map_map] at mem
  obtain ⟨e, _, rfl⟩ := List.mem_map.mp mem
  have indent : Plain indentation := by decide
  refine ⟨Or.inl rfl, ?_⟩
  simpa [Statement.ofElement, Statement.bare] using ⟨indent, Numbering.idAtPlain _ _⟩

theorem sectionsFramed (n : Numbering) {sections : List Section} (plain : ∀ s ∈ sections, Plain s.heading) :
    Framed (drawSections n sections).1 (2 * sections.length) := by
  induction sections generalizing n with
  | nil => exact ⟨by simp [drawSections], rfl, rfl⟩
  | cons s rest ih =>
    obtain ⟨here, later⟩ := List.forall_mem_cons.mp plain
    have nodes := (Framed.comment s.heading here).append (elementsFramed n s.elements)
    have after := Framed.blank.append (ih (n.resolveAll s.elements).2 later)
    rw [sectionsCons]
    refine (nodes.append after).resize ?_
    rw [List.length_cons]
    omega

theorem foundPlain {name id : String} (found : n.find name = some id) : Plain id := by
  rw [Numbering.findScan] at found
  obtain ⟨mark, _, rfl⟩ := Option.map_eq_some_iff.mp found
  exact Numbering.idAtPlain _ _

theorem endsLink {source target : String} {make : String × String → Statement} {s : Statement}
    (link : ∀ ids, Plain ids.1 → Plain ids.2 → (make ids).isLink = true ∧ ∀ t ∈ (make ids).bare, Plain t)
    (drawn : (ends n source target).map make = some s) : s.isLink = true ∧ ∀ t ∈ s.bare, Plain t := by
  obtain ⟨ids, found, rfl⟩ := Option.map_eq_some_iff.mp drawn
  obtain ⟨first, second⟩ := endsFound found
  exact link ids (foundPlain first) (foundPlain second)

theorem linksFramed {ρ : Type} {rows : List ρ} {draw : ρ → Option Statement}
    (each : ∀ r s, draw r = some s → s.isLink = true ∧ ∀ t ∈ s.bare, Plain t) :
    Framed (rows.filterMap draw) 0 := by
  apply Framed.drawn
  intro s mem
  obtain ⟨r, _, drawn⟩ := List.mem_filterMap.mp mem
  obtain ⟨link, plain⟩ := each r s drawn
  exact ⟨Or.inr link, plain⟩

theorem edgeLink {source arrow target : String} (label : String) (first : Plain source) (along : Plain arrow)
    (second : Plain target) : (Statement.edge source arrow target label).isLink = true ∧
      ∀ t ∈ (Statement.edge source arrow target label).bare, Plain t := by
  refine ⟨rfl, ?_⟩
  simpa [Statement.bare] using ⟨first, along, second⟩

end

section

variable {ix : Index} {n : ChainNumbering} {c : Chain}

theorem chainNodesFramed {indent : String} (plain : Plain indent) :
    Framed (chainNodes ix indent (n.assign c.nodes).1 c) 0 := by
  rw [chainNodesKeys]
  apply Framed.drawn
  intro s mem
  obtain ⟨key, _, rfl⟩ := List.mem_map.mp mem
  refine ⟨Or.inl rfl, ?_⟩
  simpa [keyNode, Statement.bare] using ⟨plain, ChainNumbering.idAtPlain _⟩

theorem chainEdgeLink {s : Statement} (mem : s ∈ chainEdges (n.assign c.nodes).1 c) :
    s.isLink = true ∧ ∀ t ∈ s.bare, Plain t := by
  obtain ⟨source, target, label, rfl, ⟨_, _, first⟩, ⟨_, _, second⟩⟩ := edgeEnds mem
  rw [first, second]
  exact edgeLink label (ChainNumbering.idAtPlain _) (by decide) (ChainNumbering.idAtPlain _)

theorem chainEdgesFramed : Framed (chainEdges (n.assign c.nodes).1 c) 0 := by
  apply Framed.drawn
  intro s mem
  obtain ⟨link, plain⟩ := chainEdgeLink mem
  exact ⟨Or.inr link, plain⟩

theorem chainSheetLined (ix : Index) (n : ChainNumbering) (c : Chain) : (chainSheet ix n c).1.Drawn 15 2 := by
  have nodes : Framed (chainNodes ix indentation (n.assign c.nodes).1 c) 0 := chainNodesFramed (by decide)
  have edges : Framed (chainEdges (n.assign c.nodes).1 c) 0 := chainEdgesFramed
  have opening := (Framed.comment (escapeLabel c.name) (escapedPlain c.name)).append (Framed.blank.append nodes)
  have closing := Framed.blank.append ((Framed.comment "Chain Relationships" (by decide)).append edges)
  have body := (((Framed.start "flowchart TD" (by decide)).append opening).append closing).append .blank
  exact framedLined body (by decide) StyleClass.all (by decide) (by decide) rfl (by decide)

theorem numberedGiven {chains : List Chain} {group : Chain × List (Key × String)}
    (mem : group ∈ numberChains {} chains) : ∃ n : ChainNumbering, group.2 = (n.assign group.1.nodes).1 := by
  rw [numberedAt] at mem
  obtain ⟨⟨c, place⟩, _, rfl⟩ := List.mem_map.mp mem
  exact ⟨_, rfl⟩

theorem chainGroupsFramed (ix : Index) (number : Nat) {groups : List (Chain × List (Key × String))}
    (given : ∀ group ∈ groups, ∃ n : ChainNumbering, group.2 = (n.assign group.1.nodes).1) :
    Framed (chainGroups ix number groups) (3 * groups.length) := by
  induction groups generalizing number with
  | nil => exact ⟨by simp [chainGroups], rfl, rfl⟩
  | cons group rest ih =>
    obtain ⟨c, ids⟩ := group
    obtain ⟨⟨n, same⟩, later⟩ := List.forall_mem_cons.mp given
    obtain rfl : ids = (n.assign c.nodes).1 := same
    have opening : Framed [.openGroup number c.name] 1 := ⟨by simp [Statement.bare], rfl, rfl⟩
    have closing : Framed [.closeGroup] 1 := ⟨by simp [Statement.bare], rfl, rfl⟩
    have nodes : Framed (chainNodes ix (indentation ++ indentation) (n.assign c.nodes).1 c) 0 :=
      chainNodesFramed (by decide)
    rw [chainGroupsCons]
    refine ((opening.append nodes).append (closing.append (Framed.blank.append (ih (number + 1) later)))).resize ?_
    rw [List.length_cons]
    omega

theorem groupedSheetLined (ix : Index) (chains : List Chain) :
    (groupedSheet ix chains).Drawn (12 + 3 * chains.length) 2 := by
  have groups : Framed (chainGroups ix 1 (numberChains {} chains)) (3 * (numberChains {} chains).length) :=
    chainGroupsFramed ix 1 fun group mem => numberedGiven mem
  have count : (numberChains {} chains).length = chains.length := by simp [numberedAt]
  rw [count] at groups
  have edges : Framed ((numberChains {} chains).flatMap fun group => chainEdges group.2 group.1) 0 := by
    apply Framed.drawn
    intro s mem
    obtain ⟨group, listed, drawn⟩ := List.mem_flatMap.mp mem
    obtain ⟨n, same⟩ := numberedGiven listed
    rw [same] at drawn
    obtain ⟨link, plain⟩ := chainEdgeLink drawn
    exact ⟨Or.inr link, plain⟩
  have body := (((Framed.start "flowchart TD" (by decide)).append groups).append
    ((Framed.comment "Chain Internal Relationships" (by decide)).append edges)).append .blank
  exact framedLined body (by omega) StyleClass.all (by decide) (by decide) (by simp [StyleClass.all]; omega) (by decide)

end

theorem arrowPlain (callType : String) : Plain (arrowFor callType) := by
  unfold arrowFor
  cases CallKind.ofName? callType with
  | none => decide
  | some kind => cases kind <;> decide

theorem eventArrowPlain (callType : String) : Plain (Inventory.eventArrow callType) := by
  unfold Inventory.eventArrow
  split <;> decide

theorem callLabelPlain (callType : String) : Plain (Inventory.commandCallLabel callType) := by
  unfold Inventory.commandCallLabel
  split <;> decide

end FlowAtlas.Diagram

namespace FlowAtlas

open Diagram

namespace Inventory

variable (inv : Inventory)

theorem architectureLined : inv.architectureSheet.Drawn 26 1 := by
  have headings : ∀ s ∈ inv.architectureSections, Plain s.heading := by
    simp only [architectureSections, List.forall_mem_cons, List.not_mem_nil, false_implies, implies_true, and_true]
    and_intros <;> decide
  have sections := (Framed.start "flowchart TD" (by decide)).append (sectionsFramed {} headings)
  refine framedLined (((sections.append ((Framed.comment "Relationships" (by decide)).append (?_ : Framed _ 0))).append
    (?_ : Framed _ 0)).append .blank) (by omega) StyleClass.all (by decide) (by decide) rfl (by decide)
  · exact linksFramed fun r s drawn => endsLink (fun _ first second => edgeLink _ first (arrowPlain _) second) drawn
  · exact linksFramed fun r s drawn => endsLink (fun _ first second => edgeLink _ first (by decide) second) drawn

theorem commandLined : inv.commandSheet.Drawn 8 1 := by
  have nodes := (Framed.start "flowchart LR" (by decide)).append (elementsFramed {} inv.commandElements)
  refine framedLined ((nodes.append (Framed.blank.append (?_ : Framed _ 0))).append .blank) (by decide)
    [.controller, .command, .entity] (by decide) (by decide) rfl (by decide)
  refine linksFramed fun r s drawn => endsLink (fun _ first second => ⟨rfl, ?_⟩) drawn
  simpa [Statement.bare] using ⟨first, second, callLabelPlain _⟩

theorem eventLined : inv.eventSheet.Drawn 16 1 := by
  have headings : ∀ s ∈ inv.eventSections, Plain s.heading := by
    simp only [eventSections, List.forall_mem_cons, List.not_mem_nil, false_implies, implies_true, and_true]
    and_intros <;> decide
  have sections := (Framed.start "flowchart TD" (by decide)).append (sectionsFramed {} headings)
  refine framedLined ((sections.append (?_ : Framed _ 0)).append .blank) (by omega)
    [.domainEvent, .integrationEvent, .handler, .converter] (by decide) (by decide) rfl (by decide)
  exact linksFramed fun r s drawn =>
    endsLink (fun _ first second => edgeLink _ first (eventArrowPlain _) second) drawn

end Inventory

theorem flowchartsLined (inv : Inventory) :
    inv.architectureSheet.Lined 26 1 ∧ inv.commandSheet.Lined 8 1 ∧ inv.eventSheet.Lined 16 1 ∧
      (∀ n c, (chainSheet inv.index n c).1.Lined 15 2) ∧
      (∀ chains, (groupedSheet inv.index chains).Lined (12 + 3 * chains.length) 2) ∧
      inv.chainFigures.map (·.text) = inv.chains.map (fun c => (chainSheet inv.index {} c.toChain).1.text) ∧
      inv.commandChainFigures.map (·.text) =
        inv.commandChains.map (fun c => (chainSheet inv.index {} c.toChain).1.text) := by
  refine ⟨inv.architectureLined.toLined, inv.commandLined.toLined, inv.eventLined.toLined,
    fun n c => (chainSheetLined inv.index n c).toLined, fun chains => (groupedSheetLined inv.index chains).toLined, ?_, ?_⟩
  · rw [Inventory.chainFigures, List.map_map]
    rfl
  · rw [Inventory.commandChainFigures, List.map_map]
    rfl

end FlowAtlas
