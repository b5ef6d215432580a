import FlowAtlas.Proofs.Chain.Rooted
import FlowAtlas.Proofs.Diagram.ChainEdges
/-! Sheets of rooted chains. Drawing such a chain leaves nothing out and repeats nothing, also among several
chains: each is numbered on from the one before, so no identifier serves two of them. -/
namespace FlowAtlas

namespace Diagram

structure DrawnWhole (c : Chain) : Prop where
  kept : droppedEdges c = []
  drawn : ∀ n : ChainNumbering, chainEdges (n.assign c.nodes).1 c = c.edges.map (drawnEdge n c)
  once : ∀ n : ChainNumbering, (c.edges.map (drawnEdge n c)).Nodup
  sheet : ∀ (ix : Index) (n : ChainNumbering),
    (chainSheet ix n c).1.filter (·.isEdge) = c.edges.map (drawnEdge n c)

theorem rootedDrawn {c : Chain} (rooted : c.Rooted) : DrawnWhole c := by
  have drawn : ∀ n : ChainNumbering, chainEdges (n.assign c.nodes).1 c = c.edges.map (drawnEdge n c) :=
    fun n => chainEdgesDrawn n rooted.nodes rooted.ends
  constructor
  case kept => exact noneDropped rooted.ends
  case drawn => exact drawn
  case once => exact fun n => drawnDistinct n rooted.edges rooted.ends
  case sheet => exact fun ix n => (chainSheetEdges ix n).trans (drawn n)

def groupedEdges (n : ChainNumbering) : List Chain → Sheet
  | [] => []
  | c :: rest => c.edges.map (drawnEdge n c) ++ groupedEdges (n.assign c.nodes).2 rest

theorem numberedEdges (n : ChainNumbering) {chains : List Chain} (rooted : ∀ c ∈ chains, c.Rooted) :
    (numberChains n chains).flatMap (fun (c, ids) => chainEdges ids c) = groupedEdges n chains := by
  induction chains generalizing n with
  | nil => rfl
  | cons c rest ih =>
    obtain ⟨here, later⟩ := List.forall_mem_cons.mp rooted
    rw [numberChains, List.flatMap_cons, ih _ later]
    exact congrArg (· ++ groupedEdges (n.assign c.nodes).2 rest) ((rootedDrawn here).drawn n)

theorem groupedSheetEdges (ix : Index) {chains : List Chain} (rooted : ∀ c ∈ chains, c.Rooted) :
    (groupedSheet ix chains).filter (·.isEdge) = groupedEdges {} chains := by
  exact (groupedSheetDrawn ix chains).trans (numberedEdges {} rooted)

theorem groupedFrom {n : ChainNumbering} {chains : List Chain} {s : Statement} (mem : s ∈ groupedEdges n chains) :
    ∃ number target label, n.next ≤ number ∧ s = .edge (ChainNumbering.idAt number) "-->" target label := by
  induction chains generalizing n with
  | nil => cases mem
  | cons c rest ih =>
    rcases List.mem_append.mp mem with here | later
    · obtain ⟨x, _, rfl⟩ := List.mem_map.mp here
      exact ⟨_, _, _, by omega, rfl⟩
    · obtain ⟨number, target, label, above, same⟩ := ih later
      have next : n.next ≤ (n.assign c.nodes).2.next := Int.le_add_of_nonneg_right (Int.natCast_nonneg _)
      exact ⟨number, target, label, next.trans above, same⟩

theorem groupedDistinct (n : ChainNumbering) {chains : List Chain} (rooted : ∀ c ∈ chains, c.Rooted) :
    (groupedEdges n chains).Nodup := by
  induction chains generalizing n with
  | nil => exact List.nodup_nil
  | cons c rest ih =>
    obtain ⟨here, later⟩ := List.forall_mem_cons.mp rooted
    rw [groupedEdges, List.nodup_append]
    refine ⟨(rootedDrawn here).once n, ih _ later, ?_⟩
    intro s first t second same
    obtain ⟨x, mem, rfl⟩ := List.mem_map.mp first
    obtain ⟨number, target, label, above, rfl⟩ := groupedFrom second
    have place := List.idxOf_lt_length_iff.mpr (here.ends x mem).1
    have equal := idAtInjective (Statement.edge.inj same).1
    rw [assignedNext n here.nodes] at above
    omega

end Diagram

theorem chainsRootedAndDrawn (inv : Inventory) :
    (∀ root, (inv.chainFrom root).Rooted ∧ Diagram.DrawnWhole (inv.chainFrom root).toChain) ∧
      (∀ c ∈ inv.chains, c.Rooted ∧ Diagram.DrawnWhole c.toChain) ∧
      (∀ c ∈ inv.commandChains, c.Rooted ∧ Diagram.DrawnWhole c.toChain) ∧
      inv.groupedChainsSheet.filter (·.isEdge) = Diagram.groupedEdges {} (inv.chains.map (·.toChain)) ∧
      (Diagram.groupedEdges {} (inv.chains.map (·.toChain))).Nodup := by
  have extracted : ∀ c ∈ inv.chains, c.Rooted := by
    intro c mem
    obtain ⟨root, _, rfl⟩ := List.mem_map.mp mem
    exact chainFromRooted inv root
  have grouped : ∀ c ∈ inv.chains.map (·.toChain), c.Rooted := by
    intro c mem
    obtain ⟨traced, listed, rfl⟩ := List.mem_map.mp mem
    exact extracted traced listed
  refine ⟨fun root => ?_, fun c mem => ?_, fun c mem => ?_, ?_, ?_⟩
  · have rooted := chainFromRooted inv root
    exact ⟨rooted, Diagram.rootedDrawn rooted⟩
  · have rooted := extracted c mem
    exact ⟨rooted, Diagram.rootedDrawn rooted⟩
  · obtain ⟨d, _, rfl⟩ := List.mem_map.mp mem
    have rooted := chainOfRooted inv d
    exact ⟨rooted, Diagram.rootedDrawn rooted⟩
  · exact Diagram.groupedSheetEdges inv.index grouped
  · exact Diagram.groupedDistinct {} grouped

end FlowAtlas
