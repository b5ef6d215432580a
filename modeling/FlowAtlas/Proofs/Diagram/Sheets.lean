import FlowAtlas.Diagram.Statement
import FlowAtlas.Proofs.Inventory.Scan
/-! What a sheet declares, joins and styles. The style block of a sheet names each declared identifier that
has a category once, on the line of the class of that category, and names nothing else. -/
namespace FlowAtlas.Diagram

namespace Statement

def isNode : Statement → Bool
  | node .. => true
  | _ => false

def node? : Statement → Option (String × Option Category)
  | node _ id category _ _ => some (id, category)
  | _ => none

def joins : Statement → List String
  | edge source _ target _ => [source, target]
  | call source target _ => [source, target]
  | _ => []

def styled : Statement → List (String × StyleClass)
  | assign ids style => ids.map fun id => (id, style)
  | _ => []

end Statement

namespace Sheet

def nodes (sheet : Sheet) : List (String × Option Category) := sheet.filterMap (·.node?)

def joined (sheet : Sheet) : List String := sheet.flatMap (·.joins)

def styled (sheet : Sheet) : List (String × StyleClass) := sheet.flatMap (·.styled)

structure Consistent (sheet : Sheet) : Prop where
  joined : ∀ id ∈ sheet.joined, ∃ category, (id, category) ∈ sheet.nodes
  styled : ∀ id style, (id, style) ∈ sheet.styled → ∃ category, (id, category) ∈ sheet.nodes
  classed : ∀ id category, (id, some category) ∈ sheet.nodes →
    sheet.styled.filter (·.1 = id) = [(id, .ofCategory category)]
  unclassed : ∀ id, (id, none) ∈ sheet.nodes → sheet.styled.filter (·.1 = id) = []

/-- The node statements stand for `origins` in order, and share an identifier only where the marks agree. -/
def StandsFor {ω μ : Type} (sheet : Sheet) (origins : List ω) (mark : ω → μ) (draw : String → ω → Statement) :
    Prop :=
  ∃ idOf : μ → String, sheet.filter (·.isNode) = origins.map (fun o => draw (idOf (mark o)) o) ∧
    ∀ a ∈ origins, ∀ b ∈ origins, idOf (mark a) = idOf (mark b) → mark a = mark b

end Sheet

section

variable {α κ : Type} [DecidableEq κ]

theorem pushSpread (key : κ) (value : α) (table : List (κ × List α)) :
    ((Table.push key value table).flatMap fun group => group.2.map fun v => (v, group.1)).Perm
      ((value, key) :: table.flatMap fun group => group.2.map fun v => (v, group.1)) := by
  induction table with
  | nil => exact .refl _
  | cons entry rest ih =>
    obtain ⟨k, vs⟩ := entry
    by_cases same : k = key
    · subst k
      simp only [Table.push, if_true, List.flatMap_cons, List.map_append, List.append_assoc]
      exact List.perm_middle
    · simp only [Table.push, if_neg same, List.flatMap_cons]
      exact (ih.append_left _).trans List.perm_middle

theorem groupsSpread (items : List (α × κ)) (table : List (κ × List α)) :
    ((items.foldl (fun table (v, k) => Table.push k v table) table).flatMap fun group =>
      group.2.map fun v => (v, group.1)).Perm
        (items ++ table.flatMap fun group => group.2.map fun v => (v, group.1)) := by
  induction items generalizing table with
  | nil => exact .refl _
  | cons item rest ih =>
    rw [List.foldl_cons]
    refine (ih _).trans (((pushSpread item.2 item.1 table).append_left rest).trans ?_)
    exact List.perm_middle

theorem insertNewKeys (key : κ) (value : α) (table : List (κ × α)) :
    (Table.insertNew key value table).map (·.1) = Selection.addNew id (table.map (·.1)) key := by
  induction table with
  | nil => rfl
  | cons entry rest ih =>
    obtain ⟨k, v⟩ := entry
    by_cases same : k = key
    · simp [Table.insertNew, Selection.addNew, same]
    · rw [List.map_cons, Selection.addNewCons same, ← ih, Table.insertNew, if_neg same, List.map_cons]

theorem insertedKeys (items : List (κ × α)) (table : List (κ × α)) :
    (items.foldl (fun table (k, v) => Table.insertNew k v table) table).map (·.1) =
      (items.map (·.1)).foldl (Selection.addNew id) (table.map (·.1)) := by
  induction items generalizing table with
  | nil => rfl
  | cons item rest ih => rw [List.foldl_cons, ih, insertNewKeys, List.map_cons, List.foldl_cons]

theorem entryOnce {table : List (κ × α)} (once : (table.map (·.1)).Nodup) (key : κ) :
    table.filter (·.1 = key) = ((Table.get? key table).map fun value => (key, value)).toList := by
  induction table with
  | nil => rfl
  | cons entry rest ih =>
    obtain ⟨k, v⟩ := entry
    obtain ⟨absent, once⟩ := List.nodup_cons.mp once
    by_cases same : k = key
    · subst k
      have others : rest.filter (·.1 = key) = [] := by
        rw [List.filter_eq_nil_iff]
        intro entry mem here
        exact absent (List.mem_map.mpr ⟨entry, mem, of_decide_eq_true here⟩)
      simp [Table.get?, others]
    · simp [Table.get?, same, ih once]

end

section

variable {sheet : Sheet}

theorem stylesOnce (sheet : Sheet) : (sheet.styles.map (·.1)).Nodup := by
  rw [Sheet.styles, insertedKeys]
  exact Selection.firstsNodup _

theorem nodesFiltered (sheet : Sheet) : sheet.nodes = (sheet.filter (·.isNode)).filterMap (·.node?) := by
  rw [Sheet.nodes, List.filterMap_filter]
  apply List.filterMap_congr
  intro s _
  cases s <;> rfl

theorem styleScan (sheet : Sheet) (id : String) : Table.get? id sheet.styles =
    ((sheet.filterMap (·.style?)).find? (fun entry => entry.1 = id)).map (·.2) :=
  firstInserted Prod.fst Prod.snd (sheet.filterMap Statement.style?) [] id

theorem styleNode {s : Statement} {id : String} {style : StyleClass} : s.style? = some (id, style) ↔
    ∃ category, s.node? = some (id, some category) ∧ style = .ofCategory category := by
  cases s with
  | node indent id category label root =>
    cases category <;> simp [Statement.style?, Statement.node?, eq_comm]
  | _ => simp [Statement.style?, Statement.node?]

theorem styleFound {id : String} {style : StyleClass} (found : Table.get? id sheet.styles = some style) :
    ∃ category, (id, some category) ∈ sheet.nodes ∧ style = .ofCategory category := by
  rw [styleScan, Option.map_eq_some_iff] at found
  obtain ⟨⟨name, style⟩, first, rfl⟩ := found
  obtain rfl : name = id := by simpa using List.find?_some first
  obtain ⟨s, mem, drawn⟩ := List.mem_filterMap.mp (List.mem_of_find?_eq_some first)
  obtain ⟨category, node, same⟩ := styleNode.mp drawn
  exact ⟨category, List.mem_filterMap.mpr ⟨s, mem, node⟩, same⟩

theorem styledFound {id : String} {category : Category} (mem : (id, some category) ∈ sheet.nodes) :
    ∃ style, Table.get? id sheet.styles = some style := by
  obtain ⟨s, drawn, node⟩ := List.mem_filterMap.mp mem
  have entry : (id, StyleClass.ofCategory category) ∈ sheet.filterMap (·.style?) :=
    List.mem_filterMap.mpr ⟨s, drawn, styleNode.mpr ⟨category, node, rfl⟩⟩
  rw [styleScan]
  cases first : (sheet.filterMap (·.style?)).find? (fun entry => entry.1 = id) with
  | none =>
    exact absurd (decide_eq_true rfl) (List.find?_eq_none.mp first _ entry)
  | some found => exact ⟨found.2, rfl⟩

theorem styleBlockForms {heading assignment : String} {classes : List StyleClass} {s : Statement}
    (mem : s ∈ sheet.styleBlock heading classes assignment) :
    (∃ text, s = .comment indentation text) ∨ (∃ style, s = .classDef style) ∨ s = .blank ∨
      ∃ ids style, s = .assign ids style := by
  unfold Sheet.styleBlock at mem
  rcases List.mem_append.mp mem with opening | closing
  · rcases List.mem_cons.mp opening with rfl | definition
    · exact Or.inl ⟨_, rfl⟩
    · obtain ⟨style, _, rfl⟩ := List.mem_map.mp definition
      exact Or.inr (Or.inl ⟨style, rfl⟩)
  · split at closing
    · cases closing
    · rcases List.mem_append.mp closing with title | line
      · split at title <;> simp only [List.mem_cons, List.not_mem_nil, or_false] at title
        · exact Or.inr (Or.inr (Or.inl title))
        · rcases title with rfl | rfl
          · exact Or.inr (Or.inr (Or.inl rfl))
          · exact Or.inl ⟨_, rfl⟩
      · obtain ⟨group, _, rfl⟩ := List.mem_map.mp line
        exact Or.inr (Or.inr (Or.inr ⟨_, _, rfl⟩))

theorem styleBlockNoNode (heading assignment : String) (classes : List StyleClass) (sheet : Sheet) :
    (sheet.styleBlock heading classes assignment).filter (·.isNode) = [] := by
  rw [List.filter_eq_nil_iff]
  intro s mem
  obtain ⟨_, rfl⟩ | ⟨_, rfl⟩ | rfl | ⟨_, _, rfl⟩ := styleBlockForms mem <;> simp [Statement.isNode]

theorem styleBlockNodes (heading assignment : String) (classes : List StyleClass) (sheet : Sheet) :
    Sheet.nodes (sheet.styleBlock heading classes assignment) = [] := by
  rw [nodesFiltered, styleBlockNoNode]
  rfl

theorem styleBlockJoined (heading assignment : String) (classes : List StyleClass) (sheet : Sheet) :
    Sheet.joined (sheet.styleBlock heading classes assignment) = [] := by
  rw [Sheet.joined, List.flatMap_eq_nil_iff]
  intro s mem
  obtain ⟨_, rfl⟩ | ⟨_, rfl⟩ | rfl | ⟨_, _, rfl⟩ := styleBlockForms mem <;> rfl

theorem styleBlockStyled (heading assignment : String) (classes : List StyleClass) (sheet : Sheet) :
    (Sheet.styled (sheet.styleBlock heading classes assignment)).Perm
      (sheet.styles.filter fun (_, style) => style ∈ classes) := by
  have gathered : ((Sheet.styleGroups classes sheet.styles).flatMap fun group =>
      group.2.map fun id => (id, group.1)).Perm (sheet.styles.filter fun (_, style) => style ∈ classes) := by
    simpa [Sheet.styleGroups] using groupsSpread (sheet.styles.filter fun (_, style) => style ∈ classes) []
  refine List.Perm.trans (.of_eq ?_) gathered
  unfold Sheet.styled Sheet.styleBlock
  generalize Sheet.styleGroups classes sheet.styles = groups
  cases groups with
  | nil => simp [Statement.styled]
  | cons group rest =>
    by_cases untitled : assignment = "" <;> simp [untitled, Statement.styled, List.flatMap_map]

variable {body : Sheet} {classes : List StyleClass}

theorem styledOnce (heading assignment : String)
    (covered : ∀ id category, (id, some category) ∈ body.nodes → StyleClass.ofCategory category ∈ classes)
    (id : String) : (Sheet.styled (body.styleBlock heading classes assignment)).filter (·.1 = id) =
      ((Table.get? id body.styles).map fun style => (id, style)).toList := by
  have named := (styleBlockStyled heading assignment classes body).filter (·.1 = id)
  rw [List.filter_comm, entryOnce (stylesOnce body)] at named
  cases found : Table.get? id body.styles with
  | none => simpa [found] using named
  | some style =>
    obtain ⟨category, mem, rfl⟩ := styleFound found
    simpa [found, covered id category mem] using named

/- A sheet is consistent when its statements before the style block declare what they refer to and each
identifier in one category. -/
theorem sheetConsistent (heading assignment : String) (bare : body.styled = [])
    (joined : ∀ id ∈ body.joined, ∃ category, (id, category) ∈ body.nodes)
    (agree : ∀ id c d, (id, c) ∈ body.nodes → (id, d) ∈ body.nodes → c = d)
    (covered : ∀ id category, (id, some category) ∈ body.nodes → StyleClass.ofCategory category ∈ classes) :
    Sheet.Consistent (body ++ body.styleBlock heading classes assignment) := by
  have nodes : Sheet.nodes (body ++ body.styleBlock heading classes assignment) = body.nodes := by
    have block := styleBlockNodes heading assignment classes body
    simp only [Sheet.nodes, List.filterMap_append] at block ⊢
    rw [block, List.append_nil]
  have lines : Sheet.styled (body ++ body.styleBlock heading classes assignment) =
      Sheet.styled (body.styleBlock heading classes assignment) := by
    simp only [Sheet.styled, List.flatMap_append] at bare ⊢
    rw [bare, List.nil_append]
  have once := styledOnce heading assignment covered
  constructor
  case joined =>
    rw [nodes]
    intro id mem
    have block := styleBlockJoined heading assignment classes body
    simp only [Sheet.joined, List.flatMap_append] at block mem
    rw [block, List.append_nil] at mem
    exact joined id mem
  case styled =>
    rw [nodes, lines]
    intro id style mem
    have here : (id, style) ∈ (Sheet.styled (body.styleBlock heading classes assignment)).filter (·.1 = id) := by
      simpa using mem
    rw [once, Option.mem_toList] at here
    obtain ⟨style, found, _⟩ := Option.map_eq_some_iff.mp here
    obtain ⟨category, node, _⟩ := styleFound found
    exact ⟨_, node⟩
  case classed =>
    rw [nodes, lines]
    intro id category mem
    obtain ⟨style, found⟩ := styledFound mem
    obtain ⟨other, node, rfl⟩ := styleFound found
    obtain rfl := Option.some.inj (agree id _ _ mem node)
    rw [once, found]
    rfl
  case unclassed =>
    rw [nodes, lines]
    intro id mem
    rw [once]
    cases found : Table.get? id body.styles with
    | none => rfl
    | some style =>
      obtain ⟨category, node, _⟩ := styleFound found
      cases agree id _ _ mem node

end

end FlowAtlas.Diagram
