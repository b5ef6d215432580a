import FlowAtlas.Proofs.Diagram.Sheets
/-! Sheets put together from parts. A part is known by its node statements and by what its edges join; a sheet
whose edges join only what its nodes stand for is consistent once its style block is added. -/
namespace FlowAtlas.Diagram

structure Draws (body nodes : Sheet) (known : String → Prop) : Prop where
  nodes : body.filter (·.isNode) = nodes
  bare : ∀ s ∈ body, s.styled = []
  joins : ∀ s ∈ body, ∀ id ∈ s.joins, known id

namespace Draws

variable {a b first second : Sheet} {known : String → Prop}

theorem append (one : Draws a first known) (two : Draws b second known) :
    Draws (a ++ b) (first ++ second) known := by
  constructor
  case nodes => rw [List.filter_append, one.nodes, two.nodes]
  case bare =>
    intro s mem
    exact (List.mem_append.mp mem).elim (one.bare s) (two.bare s)
  case joins =>
    intro s mem
    exact (List.mem_append.mp mem).elim (one.joins s) (two.joins s)

theorem before (one : Draws a [] known) (two : Draws b second known) : Draws (a ++ b) second known :=
  one.append two

theorem after (one : Draws a first known) (two : Draws b [] known) : Draws (a ++ b) first known := by
  simpa using one.append two

theorem blockNodes (draws : Draws a first known) (heading assignment : String) (classes : List StyleClass) :
    (a ++ a.styleBlock heading classes assignment).filter (·.isNode) = first := by
  rw [List.filter_append, draws.nodes, styleBlockNoNode, List.append_nil]

theorem flatMap {α : Type} {items : List α} {f g : α → Sheet} (each : ∀ x ∈ items, Draws (f x) (g x) known) :
    Draws (items.flatMap f) (items.flatMap g) known := by
  induction items with
  | nil => exact ⟨rfl, by simp, by simp⟩
  | cons x rest ih =>
    obtain ⟨here, later⟩ := List.forall_mem_cons.mp each
    exact here.append (ih later)

theorem links (linked : ∀ s ∈ a, s.isNode = false ∧ s.styled = [] ∧ ∀ id ∈ s.joins, known id) :
    Draws a [] known := by
  constructor
  case nodes =>
    rw [List.filter_eq_nil_iff]
    intro s mem
    simp [(linked s mem).1]
  case bare => exact fun s mem => (linked s mem).2.1
  case joins => exact fun s mem => (linked s mem).2.2

theorem silent (quiet : ∀ s ∈ a, s.isNode = false ∧ s.styled = [] ∧ s.joins = []) : Draws a [] known := by
  apply links
  intro s mem
  obtain ⟨node, bare, joins⟩ := quiet s mem
  exact ⟨node, bare, by simp [joins]⟩

theorem start (header : String) : Draws (Sheet.start header) [] known := by
  apply silent
  simp [Sheet.start, Statement.isNode, Statement.styled, Statement.joins]

theorem blank : Draws [.blank] [] known := by
  apply silent
  simp [Statement.isNode, Statement.styled, Statement.joins]

theorem comment (text : String) : Draws [.comment indentation text] [] known := by
  apply silent
  simp [Statement.isNode, Statement.styled, Statement.joins]

theorem declares (drawn : ∀ s ∈ a, s.isNode = true) : Draws a a known := by
  have node : ∀ s : Statement, s.isNode = true → s.styled = [] ∧ s.joins = [] := by
    intro s holds
    cases s <;> first | exact ⟨rfl, rfl⟩ | cases holds
  constructor
  case nodes => exact List.filter_eq_self.mpr drawn
  case bare => exact fun s mem => (node s (drawn s mem)).1
  case joins =>
    intro s mem id joined
    rw [(node s (drawn s mem)).2] at joined
    cases joined

end Draws

section

variable {ω μ : Type} {body : Sheet} {known : String → Prop} {origins : List ω} {mark : ω → μ}
  {idOf : μ → String} {draw : String → ω → Statement}

theorem drawnNodes {category : μ → Option Category}
    (draws : Draws body (origins.map fun o => draw (idOf (mark o)) o) known)
    (declared : ∀ id o, (draw id o).node? = some (id, category (mark o))) :
    body.nodes = origins.map fun o => (idOf (mark o), category (mark o)) := by
  rw [nodesFiltered, draws.nodes, List.filterMap_map, ← List.filterMap_eq_map]
  congr 1
  funext o
  exact declared _ o

/- The mark decides the category, so nodes that share an identifier agree on their class. -/
theorem drawnConsistent (category : μ → Option Category) (heading assignment : String) {classes : List StyleClass}
    (draws : Draws body (origins.map fun o => draw (idOf (mark o)) o) known)
    (declared : ∀ id o, (draw id o).node? = some (id, category (mark o)))
    (listed : ∀ id, known id → ∃ o ∈ origins, id = idOf (mark o))
    (apart : ∀ a ∈ origins, ∀ b ∈ origins, idOf (mark a) = idOf (mark b) → mark a = mark b)
    (covered : ∀ o ∈ origins, ∀ c, category (mark o) = some c → StyleClass.ofCategory c ∈ classes) :
    Sheet.Consistent (body ++ body.styleBlock heading classes assignment) ∧
      Sheet.StandsFor (body ++ body.styleBlock heading classes assignment) origins mark draw := by
  have nodes := drawnNodes draws declared
  constructor
  · apply sheetConsistent heading assignment
    · rw [Sheet.styled, List.flatMap_eq_nil_iff]
      exact draws.bare
    · intro id mem
      obtain ⟨s, drawn, joins⟩ := List.mem_flatMap.mp mem
      obtain ⟨o, origin, rfl⟩ := listed id (draws.joins s drawn id joins)
      exact ⟨category (mark o), nodes ▸ List.mem_map.mpr ⟨o, origin, rfl⟩⟩
    · intro id c d first second
      rw [nodes] at first second
      obtain ⟨a, aMem, aNode⟩ := List.mem_map.mp first
      obtain ⟨b, bMem, bNode⟩ := List.mem_map.mp second
      cases aNode
      obtain ⟨same, rfl⟩ := Prod.mk.inj bNode
      rw [apart b bMem a aMem same]
    · intro id c mem
      rw [nodes] at mem
      obtain ⟨o, origin, node⟩ := List.mem_map.mp mem
      exact covered o origin c (Prod.mk.inj node).2
  · exact ⟨idOf, draws.blockNodes heading assignment classes, apart⟩

end

theorem coveredByAll (category : Category) : StyleClass.ofCategory category ∈ StyleClass.all := by
  cases category <;> decide

end FlowAtlas.Diagram
