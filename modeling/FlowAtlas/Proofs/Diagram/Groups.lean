import FlowAtlas.Proofs.Diagram.ChainSheets
import Mathlib.Algebra.GroupWithZero.Nat
/-! One sheet for several chains. Its groups and edges are those of the sheets that the chains have by
themselves, each numbered on from the distinct nodes of the chains before it, so no two groups share an
identifier. -/
namespace FlowAtlas.Diagram

namespace Sheet

def groups : Sheet → List Sheet
  | [] => []
  | .openGroup _ _ :: rest => rest.takeWhile (· ≠ .closeGroup) :: groups rest
  | _ :: rest => groups rest

def ids (sheet : Sheet) : List String := sheet.nodes.map (·.1)

theorem groupsAfter {a : Sheet} (closed : ∀ number title, .openGroup number title ∉ a) (b : Sheet) :
    groups (a ++ b) = groups b := by
  induction a with
  | nil => rfl
  | cons s rest ih =>
    have later := ih fun number title mem => closed number title (List.mem_cons_of_mem s mem)
    cases s with
    | openGroup number title => exact absurd List.mem_cons_self (closed number title)
    | _ => exact later

theorem groupsOpen {nodes : Sheet} (drawn : ∀ s ∈ nodes, s.isNode = true) (number : Nat) (title : String)
    (rest : Sheet) : groups (.openGroup number title :: (nodes ++ .closeGroup :: rest)) = nodes :: groups rest := by
  have inside : ∀ s ∈ nodes, s ≠ .closeGroup := by
    rintro s mem rfl
    cases drawn _ mem
  have closed : ∀ number title, Statement.openGroup number title ∉ nodes := fun _ _ mem => nomatch drawn _ mem
  have here : (nodes ++ .closeGroup :: rest).takeWhile (· ≠ .closeGroup) = nodes := by
    rw [List.takeWhile_append_of_pos fun s mem => decide_eq_true (inside s mem)]
    simp
  have later : groups (nodes ++ .closeGroup :: rest) = groups rest := groupsAfter closed (.closeGroup :: rest)
  rw [groups, here, later]

end Sheet

def nodesBefore (chains : List Chain) (place : Nat) : Nat :=
  ((chains.take place).map fun c => c.nodes.toFinset.card).sum

def numberingAt (chains : List Chain) (place : Nat) : ChainNumbering := ⟨1 + nodesBefore chains place⟩

def singleSheets (ix : Index) (chains : List Chain) : List Sheet :=
  chains.zipIdx.map fun (c, place) => (chainSheet ix (numberingAt chains place) c).1

def Statement.deeper : Statement → Statement
  | .node indent id category label root => .node (indentation ++ indent) id category label root
  | s => s

theorem deeperText {s : Statement} (node : s.isNode = true) : s.deeper.text = indentation ++ s.text := by
  cases s with
  | node => simp [Statement.deeper, Statement.text, String.append_assoc]
  | _ => cases node

theorem numberChainsCons (n : ChainNumbering) (c : Chain) (rest : List Chain) : numberChains n (c :: rest) =
    (c, (n.assign c.nodes).1) :: numberChains (n.assign c.nodes).2 rest := rfl

theorem nodesBeforeCons (c : Chain) (rest : List Chain) (place : Nat) :
    nodesBefore (c :: rest) (place + 1) = c.nodes.toFinset.card + nodesBefore rest place := by
  rw [nodesBefore, List.take_succ_cons, List.map_cons, List.sum_cons, nodesBefore]

theorem numberedOn (n : ChainNumbering) (chains : List Chain) : numberChains n chains = chains.mapIdx
    fun place c => (c, ((ChainNumbering.mk (n.next + nodesBefore chains place)).assign c.nodes).1) := by
  induction chains generalizing n with
  | nil => rfl
  | cons c rest ih =>
    have first : n.next + nodesBefore (c :: rest) 0 = n.next := by simp [nodesBefore]
    have later (place : Nat) : n.next + nodesBefore (c :: rest) (place + 1) =
        (n.assign c.nodes).2.next + nodesBefore rest place := by
      rw [ChainNumbering.assignedOn, nodesBeforeCons, Int.natCast_add, Int.add_assoc]
    rw [numberChainsCons, ih, List.mapIdx_cons, first]
    simp only [later]

theorem numberedAt (chains : List Chain) : numberChains {} chains =
    chains.zipIdx.map fun (c, place) => (c, ((numberingAt chains place).assign c.nodes).1) := by
  rw [numberedOn, List.mapIdx_eq_zipIdx_map]
  rfl

theorem nodesBeforeNext {chains : List Chain} {place : Nat} {c : Chain} (here : chains[place]? = some c) :
    nodesBefore chains (place + 1) = nodesBefore chains place + c.nodes.toFinset.card := by
  rw [nodesBefore, List.take_add_one, here]
  simp [nodesBefore]

theorem nodesBeforeMono (chains : List Chain) {one other : Nat} (earlier : one ≤ other) :
    nodesBefore chains one ≤ nodesBefore chains other := by
  obtain ⟨more, rfl⟩ := Nat.exists_eq_add_of_le earlier
  rw [nodesBefore, nodesBefore, List.take_add, List.map_append, List.sum_append]
  exact Nat.le_add_right _ _

theorem placeNumber {chains : List Chain} {place : Nat} {c : Chain} (here : chains[place]? = some c) {name : String}
    (given : (numberingAt chains place).Gives c name) : ∃ number : Nat, name = ChainNumbering.idAt number ∧
      nodesBefore chains place < number ∧ number ≤ nodesBefore chains (place + 1) := by
  obtain ⟨key, mem, rfl⟩ := given
  have rank := ChainNumbering.rankBelow mem
  refine ⟨1 + nodesBefore chains place + (Selection.firsts id c.nodes).idxOf key, ?_, ?_, ?_⟩
  · simp [ChainNumbering.idOf, numberingAt]
  · omega
  · rw [nodesBeforeNext here]
    omega

theorem samePlace {chains : List Chain} {one other : Nat} {c d : Chain} (first : chains[one]? = some c)
    (second : chains[other]? = some d) {id : String} (here : (numberingAt chains one).Gives c id)
    (there : (numberingAt chains other).Gives d id) : one = other := by
  obtain ⟨a, named, above, below⟩ := placeNumber first here
  obtain ⟨b, rfl, more, under⟩ := placeNumber second there
  have same := idAtInjective named
  rcases Nat.lt_trichotomy one other with before | same | after
  · have next : nodesBefore chains (one + 1) ≤ nodesBefore chains other := nodesBeforeMono chains before
    omega
  · exact same
  · have next : nodesBefore chains (other + 1) ≤ nodesBefore chains one := nodesBeforeMono chains after
    omega

def nodesByPlace (ix : Index) (indent : String) (chains : List Chain) : List Sheet :=
  chains.zipIdx.map fun (c, place) => keyNodes ix indent (numberingAt chains place) c

def edgesByPlace (chains : List Chain) : Sheet :=
  chains.zipIdx.flatMap fun (c, place) => chainEdges ((numberingAt chains place).assign c.nodes).1 c

theorem numberedNodesByPlace (ix : Index) (indent : String) (chains : List Chain) :
    (numberChains {} chains).map (fun (c, ids) => chainNodes ix indent ids c) = nodesByPlace ix indent chains := by
  rw [numberedAt, List.map_map]
  apply List.map_congr_left
  rintro ⟨c, place⟩ _
  exact chainNodesKeys ix indent (numberingAt chains place) c

theorem numberedEdgesByPlace (chains : List Chain) :
    (numberChains {} chains).flatMap (fun (c, ids) => chainEdges ids c) = edgesByPlace chains := by
  rw [numberedAt, List.flatMap_map]
  rfl

theorem keyNodesDeeper (ix : Index) (n : ChainNumbering) (c : Chain) :
    keyNodes ix (indentation ++ indentation) n c = (keyNodes ix indentation n c).map (·.deeper) := by
  rw [keyNodes, keyNodes, List.map_map]
  rfl

theorem keyNodesGive {ix : Index} {indent : String} {n : ChainNumbering} {c : Chain} {id : String} :
    id ∈ Sheet.ids (keyNodes ix indent n c) ↔ n.Gives c id := by
  have declared : Sheet.ids (keyNodes ix indent n c) = c.nodes.map (n.idOf c.nodes) := by
    rw [Sheet.ids, Sheet.nodes, keyNodes, List.filterMap_map, List.map_filterMap, ← List.filterMap_eq_map]
    rfl
  rw [declared, List.mem_map]
  exact exists_congr fun key => and_congr_right fun _ => eq_comm

def GivenIn (chains : List Chain) (id : String) : Prop :=
  ∃ place c, chains[place]? = some c ∧ (numberingAt chains place).Gives c id

theorem edgesByPlaceJoin (chains : List Chain) : Draws (edgesByPlace chains) [] (GivenIn chains) := by
  have joins : Draws (edgesByPlace chains) (chains.zipIdx.flatMap fun _ => []) (GivenIn chains) := by
    apply Draws.flatMap
    rintro ⟨c, place⟩ listed
    exact edgesJoin fun id given => ⟨place, c, List.mem_zipIdx_iff_getElem?.mp listed, given⟩
  rwa [List.flatMap_eq_nil_iff.mpr fun _ _ => rfl] at joins

section

variable (ix : Index)

theorem chainGroupsCons (number : Nat) (c : Chain) (ids : List (Key × String))
    (rest : List (Chain × List (Key × String))) : chainGroups ix number ((c, ids) :: rest) =
      .openGroup number c.name :: chainNodes ix (indentation ++ indentation) ids c ++
        .closeGroup :: .blank :: chainGroups ix (number + 1) rest := rfl

theorem chainGroupsGroups (number : Nat) (numbered : List (Chain × List (Key × String))) (rest : Sheet) :
    Sheet.groups (chainGroups ix number numbered ++ rest) =
      numbered.map (fun (c, ids) => chainNodes ix (indentation ++ indentation) ids c) ++ Sheet.groups rest := by
  induction numbered generalizing number with
  | nil => rfl
  | cons entry others ih =>
    obtain ⟨c, ids⟩ := entry
    have drawn : ∀ s ∈ chainNodes ix (indentation ++ indentation) ids c, s.isNode = true :=
      fun s mem => chainNodesAreNodes mem
    rw [chainGroupsCons]
    simp only [List.cons_append, List.append_assoc]
    rw [Sheet.groupsOpen drawn, List.map_cons, List.cons_append, ← ih (number + 1)]
    rfl

theorem chainGroupsDraw (number : Nat) (numbered : List (Chain × List (Key × String))) (known : String → Prop) :
    Draws (chainGroups ix number numbered)
      (numbered.flatMap fun (c, ids) => chainNodes ix (indentation ++ indentation) ids c) known := by
  induction numbered generalizing number with
  | nil => exact .silent (by simp [chainGroups])
  | cons entry others ih =>
    obtain ⟨c, ids⟩ := entry
    have drawn : ∀ s ∈ chainNodes ix (indentation ++ indentation) ids c, s.isNode = true :=
      fun s mem => chainNodesAreNodes mem
    have opening : Draws [.openGroup number c.name] [] known :=
      .silent (by simp [Statement.isNode, Statement.styled, Statement.joins])
    have closing : Draws [.closeGroup] [] known :=
      .silent (by simp [Statement.isNode, Statement.styled, Statement.joins])
    rw [chainGroupsCons, List.flatMap_cons]
    exact (opening.before (.declares drawn)).append (closing.before (Draws.blank.before (ih (number + 1))))

theorem groupedSheetDraws (chains : List Chain) : ∃ body : Sheet,
    groupedSheet ix chains = body ++ body.styleBlock "Multi-Chain Styles" StyleClass.all assignmentHeading ∧
      Draws body (nodesByPlace ix (indentation ++ indentation) chains).flatten (GivenIn chains) := by
  have groups := chainGroupsDraw ix 1 (numberChains {} chains) (GivenIn chains)
  rw [List.flatMap_def, numberedNodesByPlace] at groups
  have edges := edgesByPlaceJoin chains
  rw [← numberedEdgesByPlace] at edges
  have closing := (Draws.comment "Chain Internal Relationships").before edges
  exact ⟨_, rfl, (((Draws.start _).before groups).after closing).after .blank⟩

theorem groupedGroups (chains : List Chain) :
    (groupedSheet ix chains).groups = nodesByPlace ix (indentation ++ indentation) chains := by
  have block (sheet : Sheet) : Sheet.groups
      (sheet.styleBlock "Multi-Chain Styles" StyleClass.all assignmentHeading) = [] := by
    rw [← List.append_nil (Sheet.styleBlock _ _ _ _)]
    apply Sheet.groupsAfter
    intro number title mem
    obtain ⟨_, same⟩ | ⟨_, same⟩ | same | ⟨_, _, same⟩ := styleBlockForms mem <;> cases same
  have edges (rest : Sheet) : Sheet.groups (edgesByPlace chains ++ rest) = Sheet.groups rest := by
    apply Sheet.groupsAfter
    intro number title mem
    obtain ⟨⟨c, place⟩, _, drawn⟩ := List.mem_flatMap.mp mem
    obtain ⟨_, _, _, same, _⟩ := edgeEnds drawn
    cases same
  simp only [groupedSheet, Sheet.start, List.cons_append, List.nil_append, List.append_assoc, numberedEdgesByPlace,
    Sheet.groups, chainGroupsGroups, numberedNodesByPlace, edges, block, List.append_nil]

theorem chainSheetNodes (n : ChainNumbering) (c : Chain) :
    (chainSheet ix n c).1.filter (·.isNode) = keyNodes ix indentation n c := by
  obtain ⟨body, parts, draws⟩ := chainSheetDraws ix n c
  rw [parts]
  exact draws.blockNodes _ _ _

theorem groupsSingle (chains : List Chain) : (groupedSheet ix chains).groups =
    (singleSheets ix chains).map fun sheet => (sheet.filter (·.isNode)).map (·.deeper) := by
  rw [groupedGroups, nodesByPlace, singleSheets, List.map_map]
  apply List.map_congr_left
  rintro ⟨c, place⟩ _
  simp only [Function.comp, chainSheetNodes, keyNodesDeeper]

theorem groupsText (chains : List Chain) : (groupedSheet ix chains).groups.map (·.map (·.text)) =
    (singleSheets ix chains).map fun sheet => (sheet.filter (·.isNode)).map fun s => indentation ++ s.text := by
  rw [groupsSingle, List.map_map]
  apply List.map_congr_left
  intro sheet _
  rw [Function.comp, List.map_map]
  apply List.map_congr_left
  intro s mem
  exact deeperText (List.mem_filter.mp mem).2

theorem edgesSingle (chains : List Chain) : (groupedSheet ix chains).filter (·.isEdge) =
    (singleSheets ix chains).flatMap fun sheet => sheet.filter (·.isEdge) := by
  rw [groupedSheetDrawn, numberedEdgesByPlace, edgesByPlace, singleSheets, List.flatMap_map]
  simp only [chainSheetEdges]

theorem groupsApart (chains : List Chain) :
    ((groupedSheet ix chains).groups.map Sheet.ids).Pairwise List.Disjoint := by
  rw [groupedGroups, nodesByPlace, List.map_map, List.pairwise_map]
  have places : (chains.zipIdx.map Prod.snd).Nodup := by
    rw [List.zipIdx_map_snd]
    exact List.nodup_range'
  refine (List.pairwise_map.mp places).imp_of_mem ?_
  rintro ⟨c, one⟩ ⟨d, other⟩ first second apart id here there
  exact apart (samePlace (List.mem_zipIdx_iff_getElem?.mp first) (List.mem_zipIdx_iff_getElem?.mp second)
    (keyNodesGive.mp here) (keyNodesGive.mp there))

theorem edgesInside (chains : List Chain) {s : Statement} (mem : s ∈ groupedSheet ix chains)
    (edge : s.isEdge = true) :
    ∃ group ∈ (groupedSheet ix chains).groups, ∀ id ∈ s.joins, id ∈ group.ids := by
  have drawn := List.mem_filter.mpr ⟨mem, edge⟩
  rw [groupedSheetDrawn, numberedEdgesByPlace] at drawn
  obtain ⟨⟨c, place⟩, listed, drawn⟩ := List.mem_flatMap.mp drawn
  rw [groupedGroups]
  refine ⟨_, List.mem_map.mpr ⟨(c, place), listed, rfl⟩, ?_⟩
  intro id joined
  have given : Draws _ [] ((numberingAt chains place).Gives c) := edgesJoin fun id given => given
  exact keyNodesGive.mpr (given.joins s drawn id joined)

end

theorem groupedAsSingles (ix : Index) (chains : List Chain) :
    (groupedSheet ix chains).groups.map (·.map (·.text)) = (singleSheets ix chains).map
        (fun sheet => (sheet.filter (·.isNode)).map fun s => indentation ++ s.text) ∧
      (groupedSheet ix chains).filter (·.isNode) = (groupedSheet ix chains).groups.flatten ∧
      (groupedSheet ix chains).filter (·.isEdge) =
        (singleSheets ix chains).flatMap (fun sheet => sheet.filter (·.isEdge)) ∧
      ((groupedSheet ix chains).groups.map Sheet.ids).Pairwise List.Disjoint ∧
      ∀ s ∈ groupedSheet ix chains, s.isEdge = true →
        ∃ group ∈ (groupedSheet ix chains).groups, ∀ id ∈ s.joins, id ∈ group.ids := by
  refine ⟨groupsText ix chains, ?_, edgesSingle ix chains, groupsApart ix chains, ?_⟩
  · obtain ⟨body, parts, draws⟩ := groupedSheetDraws ix chains
    rw [groupedGroups, parts]
    exact draws.blockNodes _ _ _
  · exact fun s mem edge => edgesInside ix chains mem edge

def twinChains : List Chain :=
  [⟨"first", ⟨"Shop", ""⟩, [⟨"Shop", ""⟩, ⟨"Shop", ""⟩, ⟨"Cart", ""⟩],
      [⟨⟨"Shop", ""⟩, ⟨"Cart", ""⟩, "sends"⟩, ⟨⟨"Shop", ""⟩, ⟨"Ghost", ""⟩, "sends"⟩]⟩,
    ⟨"second", ⟨"Shop", ""⟩, [⟨"Shop", ""⟩], [⟨⟨"Shop", ""⟩, ⟨"Shop", ""⟩, "waits"⟩]⟩]

theorem twinChainsGrouped :
    (groupedSheet {} twinChains).groups.map (·.map (·.text)) =
        [["        N1[\"Shop\"]", "        N1[\"Shop\"]", "        N2[\"Cart\"]"], ["        N3[\"Shop\"]"]] ∧
      (groupedSheet {} twinChains).filter (·.isEdge) =
        [.edge "N1" "-->" "N2" "sends", .edge "N3" "-->" "N3" "waits"] ∧
      ∃ group ∈ (groupedSheet {} twinChains).groups, ∀ id ∈ ["N3", "N3"], id ∈ group.ids := by
  obtain ⟨groups, -, edges, -, inside⟩ := groupedAsSingles {} twinChains
  have drawn : (groupedSheet {} twinChains).filter (·.isEdge) =
      [.edge "N1" "-->" "N2" "sends", .edge "N3" "-->" "N3" "waits"] := edges.trans (by decide +kernel)
  have last : .edge "N3" "-->" "N3" "waits" ∈ groupedSheet {} twinChains :=
    (List.mem_filter.mp (drawn ▸ List.mem_cons_of_mem _ List.mem_cons_self)).1
  exact ⟨groups.trans (by decide +kernel), drawn, inside _ last rfl⟩

end FlowAtlas.Diagram
