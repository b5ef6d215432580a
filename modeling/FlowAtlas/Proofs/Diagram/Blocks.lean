import FlowAtlas.Diagram.Classes
import FlowAtlas.Proofs.Inventory.Scan
import FlowAtlas.Proofs.Text.Parts
/-! Class diagrams: the blocks of controllers, commands and entities, and the links that refer to them. A block is
identified by the name shown for its element, the end of a link by what stands behind the last point of a full name.
The two are read from different texts, so a link can miss the block it is about. -/
namespace FlowAtlas

namespace Diagram

def SameMark (c d : Char) : Prop := c = d ∨ (isReserved c = true ∨ c = '_') ∧ (isReserved d = true ∨ d = '_')

theorem barMark {c : Char} : (if isReserved c then '_' else c) = '_' ↔ isReserved c = true ∨ c = '_' := by
  by_cases reserved : isReserved c = true <;> simp [reserved]

theorem sameMarkIff {c d : Char} :
    (if isReserved c then '_' else c) = (if isReserved d then '_' else d) ↔ SameMark c d := by
  constructor
  · intro same
    by_cases first : isReserved c = true
    · exact Or.inr ⟨Or.inl first, barMark.mp (by rw [← same, if_pos first])⟩
    · by_cases second : isReserved d = true
      · exact Or.inr ⟨barMark.mp (by rw [same, if_pos second]), Or.inl second⟩
      · rw [if_neg first, if_neg second] at same
        exact Or.inl same
  · rintro (rfl | ⟨first, second⟩)
    · rfl
    · rw [barMark.mpr first, barMark.mpr second]

theorem identifierSame {a b : String} :
    classIdentifier a = classIdentifier b ↔ List.Forall₂ SameMark a.toList b.toList := by
  rw [classIdentifier, classIdentifier, String.ofList_inj, ← List.forall₂_eq_eq_eq, List.forall₂_map_left_iff,
    List.forall₂_map_right_iff]
  simp only [sameMarkIff]

theorem identifierLength (name : String) : (classIdentifier name).toList.length = name.toList.length := by
  rw [classIdentifier, String.toList_ofList, List.length_map]

namespace ClassLink

variable {ix : Index} {r : Relationship}

def endOf (name : String) : String := classIdentifier (simpleName name)

/- Every character leaves one behind, so a part of the shown name cannot have its identifier. -/
theorem endQualified {space shown name : String} (full : name = space ++ "." ++ shown ∨ name = shown) :
    classIdentifier shown = endOf name ↔ '.' ∉ shown.toList := by
  constructor
  · intro same dotted
    obtain ⟨before, split⟩ : ∃ before, name.toList = before ++ shown.toList := by
      rcases full with rfl | rfl
      · exact ⟨_, String.toList_append⟩
      · exact ⟨[], rfl⟩
    have lengths := congrArg (fun s : String => s.toList.length) same
    simp only [endOf, identifierLength, simpleName, String.toList_ofList, split] at lengths
    have shorter := Text.afterLastShorter before dotted
    omega
  · intro free
    have behind : simpleName name = shown := by
      rcases full with rfl | rfl
      · rw [simpleName, String.toList_append, String.toList_append, List.append_assoc]
        exact (congrArg String.ofList (Text.afterLastCut _ free)).trans (String.ofList_toList)
      · rw [simpleName, Text.afterLastFree free, String.ofList_toList]
    rw [endOf, behind]

theorem linkEnds {l : ClassLink} (link : of? ix r = some l) :
    l.source = endOf r.sourceType ∧ l.target = endOf r.targetType := by
  rw [of?, Option.ite_none_right_eq_some, Option.some.injEq] at link
  obtain ⟨_, rfl⟩ := link
  exact ⟨rfl, rfl⟩

theorem linkLeftOut (source : ix.isKnown r.sourceType = true) (target : ix.isKnown r.targetType = true) :
    of? ix r = none ↔ endOf r.sourceType = "" ∨ endOf r.targetType = "" := by
  rw [of?, ite_eq_right_iff]
  simp only [source, target, endOf]
  by_cases one : classIdentifier (simpleName r.sourceType) = "" <;>
    by_cases two : classIdentifier (simpleName r.targetType) = "" <;> simp [one, two]

end ClassLink

def ClassBlock.header (b : ClassBlock) : String := "    class " ++ b.identifier ++ " \x7b"

theorem ClassBlock.headerLine (b : ClassBlock) : b.header ∈ b.lines := List.mem_cons_self

end Diagram

open Diagram

namespace Inventory

variable {inv : Inventory}

def commandSide (inv : Inventory) : List Listed := [.controller, .command, .entity].flatMap inv.listed

def blockOf? (inv : Inventory) (limit : Int) (category : Category) (name : String) : Option (Listed × ClassBlock) :=
  (inv.commandSide.zip (inv.classBlocks limit)).find? fun (e, _) => e.category = category ∧ e.fullName = name

def classLines (inv : Inventory) (limit : Int) : List String :=
  "classDiagram" :: "" :: (inv.classBlocks limit).flatMap (·.lines) ++ Selection.firsts id (inv.classLinks.map (·.line))

theorem classDiagramLines (inv : Inventory) (limit : Int) :
    inv.classDiagram limit = joinTexts "\n" (inv.classLines limit) ++ "\n" := rfl

theorem memListed {e : Listed} (mem : e ∈ inv.elements) : e ∈ inv.listed e.category := by
  obtain ⟨category, _, here⟩ := List.mem_flatMap.mp mem
  rwa [listedCategory here]

theorem blockIdentifiers (inv : Inventory) (limit : Int) :
    (inv.classBlocks limit).map (·.identifier) = inv.commandSide.map fun e => classIdentifier e.name := by
  simp [classBlocks, commandSide, listed, ClassBlock.of, Function.comp_def]

theorem blockIdentified {limit : Int} {e : Listed} {b : ClassBlock}
    (mem : (e, b) ∈ inv.commandSide.zip (inv.classBlocks limit)) : b.identifier = classIdentifier e.name := by
  have pairs := inv.blockIdentifiers limit
  rw [← List.forall₂_eq_eq_eq, List.forall₂_map_left_iff, List.forall₂_map_right_iff] at pairs
  exact (List.forall₂_iff_zip.mp pairs.flip).2 mem

theorem blockFound (limit : Int) {category : Category} {name : String}
    (drawn : category ∈ [Category.controller, .command, .entity])
    (placed : inv.index.categoryOf name = some category) : ∃ e b, inv.blockOf? limit category name = some (e, b) := by
  rw [categoryScan, Option.map_eq_some_iff] at placed
  obtain ⟨e, first, rfl⟩ := placed
  have named := List.find?_some first
  have shown : e ∈ inv.commandSide :=
    List.mem_flatMap.mpr ⟨e.category, drawn, memListed (List.mem_of_find?_eq_some first)⟩
  have counted := congrArg List.length (inv.blockIdentifiers limit)
  rw [List.length_map, List.length_map] at counted
  rw [← List.map_fst_zip counted.ge] at shown
  obtain ⟨pair, paired, rfl⟩ := List.mem_map.mp shown
  have some : (inv.blockOf? limit pair.1.category name).isSome := by
    rw [blockOf?, List.find?_isSome]
    exact ⟨pair, paired, by simpa using named⟩
  obtain ⟨⟨e, b⟩, found⟩ := Option.isSome_iff_exists.mp some
  exact ⟨e, b, found⟩

structure EndBlock (inv : Inventory) (limit : Int) (category : Category) (name : String) (e : Listed)
    (b : ClassBlock) : Prop where
  first : inv.blockOf? limit category name = some (e, b)
  header : b.header ∈ inv.classLines limit
  meets : b.identifier = ClassLink.endOf name ↔ List.Forall₂ SameMark e.name.toList (simpleName name).toList
  qualified : ∀ space, name = space ++ "." ++ e.name ∨ name = e.name →
    (b.identifier = ClassLink.endOf name ↔ '.' ∉ e.name.toList)

theorem endBlock {limit : Int} {category : Category} {name : String} {e : Listed} {b : ClassBlock}
    (found : inv.blockOf? limit category name = some (e, b)) : inv.EndBlock limit category name e b := by
  have paired := List.mem_of_find?_eq_some found
  have identified := blockIdentified paired
  constructor
  case first => exact found
  case header =>
    have line : b.header ∈ (inv.classBlocks limit).flatMap (·.lines) :=
      List.mem_flatMap.mpr ⟨b, (List.of_mem_zip paired).2, b.headerLine⟩
    exact List.mem_append_left _ (List.mem_cons_of_mem _ (List.mem_cons_of_mem _ line))
  case meets => rw [identified, ClassLink.endOf, identifierSame]
  case qualified =>
    intro space full
    rw [identified, ClassLink.endQualified full]

theorem linkLine {r : Relationship} (listed : r ∈ inv.relationships) {l : ClassLink}
    (link : ClassLink.of? inv.index r = some l) (limit : Int) : l.line ∈ inv.classLines limit := by
  have drawn : l ∈ inv.classLinks := List.mem_filterMap.mpr ⟨r, listed, link⟩
  exact List.mem_append_right _ (Selection.firstsMem.mpr (List.mem_map_of_mem drawn))

end Inventory

theorem classLinksMeetBlocks (inv : Inventory) (limit : Int) {r : Relationship} (listed : r ∈ inv.relationships)
    (source : inv.index.isKnown r.sourceType = true) (target : inv.index.isKnown r.targetType = true) :
    (ClassLink.of? inv.index r = none ↔
        ClassLink.endOf r.sourceType = "" ∨ ClassLink.endOf r.targetType = "") ∧
      (∀ l, ClassLink.of? inv.index r = some l → l.source = ClassLink.endOf r.sourceType ∧
        l.target = ClassLink.endOf r.targetType ∧ l.line ∈ inv.classLines limit) ∧
      ∀ name ∈ [r.sourceType, r.targetType], ∀ category ∈ [Category.controller, .command, .entity],
        inv.index.categoryOf name = some category → ∃ e b, inv.EndBlock limit category name e b := by
  refine ⟨ClassLink.linkLeftOut source target, ?_, ?_⟩
  · intro l link
    obtain ⟨first, second⟩ := ClassLink.linkEnds link
    exact ⟨first, second, Inventory.linkLine listed link limit⟩
  · intro name _ category drawn placed
    obtain ⟨e, b, found⟩ := Inventory.blockFound limit drawn placed
    exact ⟨e, b, Inventory.endBlock found⟩

def genericInventory : Inventory where
  controllers := [{ name := "OrderController", fullName := "Shop.OrderController" }]
  commands := [⟨"Wrap<Order>", "Shop.Wrap<Order>"⟩, ⟨"Create<Shop.Order>", "Shop.Create<Shop.Order>"⟩]
  relationships :=
    [⟨"Shop.OrderController", "Post", "Shop.Wrap<Order>", "", "MethodToCommand"⟩,
      ⟨"Shop.OrderController", "Post", "Shop.Create<Shop.Order>", "", "MethodToCommand"⟩]

theorem plainArgumentMeets :
    genericInventory.relationships[0] ∈ genericInventory.relationships ∧
      genericInventory.index.isKnown "Shop.OrderController" = true ∧
      genericInventory.index.isKnown "Shop.Wrap<Order>" = true ∧
      "    OrderController ..> Wrap_Order_" ∈ genericInventory.classLines 5 ∧
      ∃ e b, genericInventory.blockOf? 5 .command "Shop.Wrap<Order>" = some (e, b) ∧ b.identifier = "Wrap_Order_" := by
  have listed : genericInventory.relationships[0] ∈ genericInventory.relationships := List.mem_cons_self
  have source : genericInventory.index.isKnown "Shop.OrderController" = true := by decide +kernel
  have target : genericInventory.index.isKnown "Shop.Wrap<Order>" = true := by decide +kernel
  obtain ⟨_, lines, ends⟩ := classLinksMeetBlocks genericInventory 5 listed source target
  obtain ⟨e, b, block⟩ := ends "Shop.Wrap<Order>" (by decide) .command (by decide) (by decide +kernel)
  have line := (lines ⟨"OrderController", "..>", "Wrap_Order_"⟩ (by decide +kernel)).2.2
  have shown : (genericInventory.blockOf? 5 .command "Shop.Wrap<Order>").map (·.1.name) = some "Wrap<Order>" := by
    decide +kernel
  have same : e.name = "Wrap<Order>" := by
    rw [block.first] at shown
    exact Option.some.inj shown
  have meets : b.identifier = ClassLink.endOf "Shop.Wrap<Order>" := by
    refine (block.qualified "Shop" (Or.inl ?_)).mpr ?_ <;> rw [same] <;> decide
  exact ⟨listed, source, target, line, e, b, block.first, meets.trans (by decide)⟩

theorem dottedArgumentMisses :
    genericInventory.index.isKnown "Shop.OrderController" = true ∧
      genericInventory.index.categoryOf "Shop.Create<Shop.Order>" = some .command ∧
      ClassLink.of? genericInventory.index genericInventory.relationships[1] =
        some ⟨"OrderController", "..>", "Order_"⟩ ∧
      (genericInventory.blockOf? 5 .command "Shop.Create<Shop.Order>").map (·.2.header) =
        some "    class Create_Shop_Order_ \x7b" ∧
      "    OrderController ..> Order_" ∈ genericInventory.classLines 5 ∧
      "    OrderController ..> Create_Shop_Order_" ∉ genericInventory.classLines 5 := by
  refine ⟨?_, ?_, ?_, ?_, ?_, ?_⟩ <;> decide +kernel

end FlowAtlas
