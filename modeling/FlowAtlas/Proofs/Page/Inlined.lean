import FlowAtlas.Proofs.Diagram.ChainNames
import FlowAtlas.Proofs.Diagram.Openings
import FlowAtlas.Proofs.Page.Contents
import FlowAtlas.Proofs.Page.Scripts
/-! The script element of a page. Neither of the two documents in it closes the element. A comment is opened there just
where a text of the inventory opens one, and only such a text can move the end of the element away from its own tag. -/
namespace FlowAtlas

open Json (commentOpening OpensComment)

namespace Page

theorem figureOpening {f : Diagram.Figure} (drawn : ¬ commentOpening <:+: f.text.toList) :
    OpensComment (figureJson f).words ↔ commentOpening <:+: f.name.toList := by
  have words : (figureJson f).words = ["name", f.name, "diagram", f.text] := rfl
  have keys : ¬ commentOpening <:+: "name".toList ∧ ¬ commentOpening <:+: "diagram".toList := by decide
  simp only [words, Json.opensCons, keys, drawn, Json.noneOpens, false_or, or_false]

theorem figuresOpening {figures : List Diagram.Figure}
    (drawn : ∀ f ∈ figures, ¬ commentOpening <:+: f.text.toList) :
    OpensComment (Json.array (figures.map figureJson)).words ↔ OpensComment (figures.map (·.name)) := by
  rw [Json.words, Json.itemWordsMap, Json.opensFlatMap]
  constructor
  · rintro ⟨v, mem, opens⟩
    obtain ⟨f, listed, rfl⟩ := List.mem_map.mp mem
    exact ⟨f.name, List.mem_map_of_mem listed, (figureOpening (drawn f listed)).mp opens⟩
  · rintro ⟨name, mem, opens⟩
    obtain ⟨f, listed, rfl⟩ := List.mem_map.mp mem
    exact ⟨figureJson f, List.mem_map_of_mem listed, (figureOpening (drawn f listed)).mpr opens⟩

theorem Gallery.opening {g : Gallery}
    (drawn : ∀ f ∈ g.overview ++ (g.chains ++ g.commandChains), ¬ commentOpening <:+: f.text.toList) :
    OpensComment g.toJson.words ↔
      OpensComment (g.overview.map (·.name)) ∨ OpensComment ((g.chains ++ g.commandChains).map (·.name)) := by
  obtain ⟨overview, rest⟩ := List.forall_mem_append.mp drawn
  obtain ⟨chains, commands⟩ := List.forall_mem_append.mp rest
  have keys : ¬ commentOpening <:+: "overview".toList ∧ ¬ commentOpening <:+: "chains".toList ∧
      ¬ commentOpening <:+: "commandChains".toList := by decide
  rw [toJson, Json.words, Json.fieldWords, Json.fieldWords, Json.fieldWords, Json.fieldWords]
  simp only [List.cons_append, Json.opensCons, Json.opensAppend, keys, figuresOpening overview, figuresOpening chains,
    figuresOpening commands, Json.noneOpens, List.map_append, false_or, or_false]

theorem titleUnopened (kind : DiagramKind) : ¬ commentOpening <:+: (overviewTitle kind).toList := by
  cases kind <;> decide

/- Diagrams open no comment, and the titles of the overviews are fixed: the names of chains are left. -/
theorem galleryOpening (inv : Inventory) (limit : Int) (choice : Choice) :
    OpensComment (inv.gallery limit choice).toJson.words ↔ OpensComment inv.chainNames := by
  have drawn : ∀ f ∈ (inv.gallery limit choice).overview ++ (inv.chainFigures ++ inv.commandChainFigures),
      ¬ commentOpening <:+: f.text.toList := by
    intro f mem
    simp only [Inventory.gallery, Inventory.chainFigures, Inventory.commandChainFigures, List.mem_append,
      List.mem_map] at mem
    rcases mem with ⟨kind, -, rfl⟩ | ⟨c, -, rfl⟩ | ⟨c, -, rfl⟩
    · exact inv.diagramUnopened limit kind
    · exact Inventory.chainFigureUnopened _ _
    · exact Inventory.chainFigureUnopened _ _
  have titles : ¬ OpensComment ((inv.gallery limit choice).overview.map (·.name)) := by
    rintro ⟨title, mem, opens⟩
    obtain ⟨f, listed, rfl⟩ := List.mem_map.mp mem
    obtain ⟨kind, -, rfl⟩ := List.mem_map.mp listed
    exact titleUnopened kind opens
  rw [Gallery.opening drawn, or_iff_right titles]
  rfl

def beforeScript (options : Options) : String :=
  "\n".intercalate opening ++ escape options.title ++ "\n".intercalate beforeLibrary ++ libraryAddress ++
    "\n".intercalate style ++ escape options.title ++ "\n".intercalate beforeInventory.dropLast.dropLast ++ "\n    "

def codeLines : List String := script.tail.dropLast.dropLast.dropLast.dropLast

def scriptContent (inv : Inventory) (options : Options) : String :=
  "\n        const analysisData = " ++ inv.toJson.inline ++ ";\n        const diagrams = " ++
    (inv.gallery options.methodLimit options.choice).toJson.inline ++ ";\n" ++ "\n".intercalate codeLines ++ "\n    "

def afterScript : String := "</script>\n</body>\n</html>\n"

theorem closingShape : afterScript.toList = '<' :: "/script>\n</body>\n</html>\n".toList := by decide

theorem inventoryPart : "\n".intercalate beforeInventory = "\n".intercalate beforeInventory.dropLast.dropLast ++
    "\n    " ++ "<script>" ++ "\n        const analysisData = " := by
  have split : beforeInventory =
      beforeInventory.dropLast.dropLast ++ ["    <script>", "        const analysisData = "] := rfl
  have join : "\n" ++ "\n".intercalate ["    <script>", "        const analysisData = "] =
      "\n    " ++ "<script>" ++ "\n        const analysisData = " := by decide
  rw [split, String.intercalate_append_of_ne_nil (by decide) (by decide), String.append_assoc, join]
  simp only [String.append_assoc]
  rfl

theorem scriptPart : "\n".intercalate script = ";\n" ++ "\n".intercalate codeLines ++ "\n    " ++ afterScript := by
  have split : script = [";"] ++ (codeLines ++ ["    </script>", "</body>", "</html>", ""]) := rfl
  have start : "\n".intercalate [";"] ++ "\n" = ";\n" := by decide
  have join : "\n" ++ "\n".intercalate ["    </script>", "</body>", "</html>", ""] = "\n    " ++ afterScript := by
    decide
  have some : codeLines ≠ [] := by
    rintro ⟨⟩
  rw [split, String.intercalate_append_of_ne_nil (by decide) (by simp), start,
    String.intercalate_append_of_ne_nil some (by decide)]
  simp only [String.append_assoc, join]

theorem pageParts (inv : Inventory) (options : Options) :
    inv.page options = beforeScript options ++ "<script>" ++ scriptContent inv options ++ afterScript := by
  have between : "\n".intercalate beforeDiagrams = ";\n        const diagrams = " := by decide
  rw [Inventory.page, templateFilled, template]
  simp only [List.map_cons, List.map_nil, Piece.filled, String.join_cons, String.join_nil, String.append_empty]
  unfold beforeScript scriptContent
  rw [inventoryPart, scriptPart, between]
  simp only [String.append_assoc]

theorem codePlain : ∀ l ∈ codeLines, '<' ∉ l.toList ∧ ¬ commentEnd <:+: l.toList := by
  simp only [codeLines, script, List.tail_cons, List.dropLast_cons_cons, List.dropLast_singleton, List.forall_mem_cons,
    List.not_mem_nil, false_implies, implies_true, and_true]
  and_intros
  all_goals first
    | exact literalHolds (p := ('<' ∉ ·)) (by decide)
    | exact literalHolds (p := (¬ commentEnd <:+: ·)) (by decide +kernel)

theorem contentSplit (inv : Inventory) (options : Options) :
    (scriptContent inv options).toList = "\n        const analysisData = ".toList ++
      (inv.toJson.inline.toList ++ ';' :: ("\n        const diagrams = ".toList ++
        ((inv.gallery options.methodLimit options.choice).toJson.inline.toList ++
          ';' :: ('\n' :: ("\n".intercalate codeLines).toList ++ "\n    ".toList)))) := by
  unfold scriptContent
  simp

theorem contentHolds {run : List Char} (head : run.head? = some '<') (absent : ';' ∉ run) (inv : Inventory)
    (options : Options) : run <:+: (scriptContent inv options).toList ↔ run <:+: inv.toJson.inline.toList ∨
      run <:+: (inv.gallery options.methodLimit options.choice).toJson.inline.toList := by
  have some : run ≠ [] := by
    rintro rfl
    cases head
  have other : ∀ block : List Char, '<' ∉ block → ∀ c ∈ block, run.head? ≠ .some c := by
    intro block free c mem same
    rw [head] at same
    cases same
    exact free mem
  have none : ¬ run <:+: '\n' :: ("\n".intercalate codeLines).toList ++ "\n    ".toList := by
    intro inside
    have angle := inside.subset (List.mem_of_head? head)
    rw [List.cons_append, List.mem_cons, List.mem_append] at angle
    have code := linesPlain (by decide) fun l mem => (codePlain l mem).1
    exact angle.elim (by decide) fun later => later.elim code (by decide)
  rw [contentSplit, Text.infixAfter some (other _ (by decide)), Text.infixApart absent some,
    Text.infixAfter some (other _ (by decide)), Text.infixApart absent some, or_iff_left none]

theorem inlineUnclosed (v : Json) : ¬ ['<', '/'] <:+: v.inline.toList := by
  rw [Json.inline, String.toList_ofList]
  exact Json.guardUnclosed _

theorem contentUnclosed (inv : Inventory) (options : Options) :
    ¬ ['<', '/'] <:+: (scriptContent inv options).toList := by
  rw [contentHolds rfl (by decide), not_or]
  exact ⟨inlineUnclosed _, inlineUnclosed _⟩

structure ScriptElement (inv : Inventory) (options : Options) (inventory diagrams : List Char) : Prop where
  inventoryUnclosed : ¬ closingTag <:+: Text.lowerAscii inventory
  diagramsUnclosed : ¬ closingTag <:+: Text.lowerAscii diagrams
  inventoryOpens : commentOpening <:+: inventory ↔ OpensComment inv.toJson.words
  diagramsOpen : commentOpening <:+: diagrams ↔ OpensComment inv.chainNames
  named : OpensComment inv.chainNames → OpensComment inv.toJson.words
  placed : inv.page options = beforeScript options ++ "<script>" ++ scriptContent inv options ++ afterScript
  ends : ScriptState.plain.ending (scriptContent inv options ++ afterScript).toList = some afterScript.toList ↔
    ¬ LeftOpen (scriptContent inv options).toList
  leftOpen : LeftOpen (scriptContent inv options).toList → OpensComment inv.toJson.words

theorem scriptElementEnds (inv : Inventory) (options : Options) :
    ScriptElement inv options inv.toJson.inline.toList
      (inv.gallery options.methodLimit options.choice).toJson.inline.toList := by
  have data := inv.worded.inlineOpens
  have diagrams := ((inv.gallery options.methodLimit options.choice).worded.inlineOpens).trans
    (galleryOpening inv options.methodLimit options.choice)
  constructor
  case inventoryUnclosed => exact unclosedAnyCase (inlineUnclosed _)
  case diagramsUnclosed => exact unclosedAnyCase (inlineUnclosed _)
  case inventoryOpens => exact data
  case diagramsOpen => exact diagrams
  case named => exact Inventory.chainNamesOpening
  case placed => exact pageParts inv options
  case ends =>
    rw [String.toList_append, closingShape]
    exact scriptEnds (contentUnclosed inv options) (by decide)
  case leftOpen =>
    intro left
    rcases (contentHolds rfl (by decide) inv options).mp left.opens with first | second
    · exact data.mp first
    · exact Inventory.chainNamesOpening (diagrams.mp second)

def strayInventory : Inventory := { commands := [⟨"<!--<script>", "X"⟩] }

def noOverviews : Options := { choice := .list [] }

def strayRest : List Char := (Json.guarded strayInventory.toJson).dropWhile (· ≠ '<')

def strayDiagrams : List Char :=
  Json.guarded (strayInventory.gallery noOverviews.methodLimit noOverviews.choice).toJson

theorem codeKeepsOpen : ¬ commentEnd <:+: '\n' :: ("\n".intercalate codeLines).toList ++ "\n    ".toList := by
  have feed : "\n    ".toList = '\n' :: "    ".toList := by decide
  have code : ¬ commentEnd <:+: (joinTexts (String.singleton '\n') codeLines).toList := by
    rw [Text.joinedInfix (by decide) (by decide)]
    rintro ⟨l, mem, inside⟩
    exact (codePlain l mem).2 inside
  rw [← List.nil_append ('\n' :: _), List.append_assoc, List.cons_append, feed,
    Text.infixApart (by decide) (by decide), Text.infixApart (by decide) (by decide), not_or, not_or]
  exact ⟨by decide, code, by decide⟩

theorem strayLeftOpen : LeftOpen (scriptContent strayInventory noOverviews).toList := by
  have inlined : ∀ v : Json, v.inline.toList = Json.guarded v := fun v => String.toList_ofList
  obtain ⟨before, data⟩ : strayRest <:+ Json.guarded strayInventory.toJson := List.dropWhile_suffix _
  obtain ⟨opening, tag⟩ : strayRest.drop 4 <:+ strayRest := List.drop_suffix 4 strayRest
  have split := contentSplit strayInventory noOverviews
  rw [inlined, inlined, ← data, ← strayDiagrams, List.append_assoc before, ← List.append_assoc _ before] at split
  rw [split]
  refine ⟨_, List.suffix_append _ _, ?_, ?_, ?_⟩
  · exact List.IsPrefix.trans (by decide +kernel) (List.prefix_append strayRest _)
  · rw [Text.infixApart (by decide) (by decide), ← List.append_assoc _ strayDiagrams,
      Text.infixApart (by decide) (by decide), not_or, not_or]
    exact ⟨by decide +kernel, by decide +kernel, codeKeepsOpen⟩
  · rw [← tag, List.append_assoc opening]
    exact ⟨_, List.suffix_append _ _, tagAppend (by decide +kernel)⟩

theorem scriptNeverEnds :
    commentOpening <:+: strayInventory.toJson.inline.toList ∧
      strayInventory.page noOverviews =
        beforeScript noOverviews ++ "<script>" ++ scriptContent strayInventory noOverviews ++ afterScript ∧
      ScriptState.plain.ending (scriptContent strayInventory noOverviews ++ afterScript).toList = none := by
  have stranded := (ScriptState.strandsAfter .plain (contentUnclosed strayInventory noOverviews)).mpr strayLeftOpen
  refine ⟨?_, pageParts _ _, ?_⟩
  · rw [strayInventory.worded.inlineOpens]
    decide +kernel
  · rw [String.toList_append, closingShape, ScriptState.endingAfter _ (contentUnclosed _ _), stranded]
    decide +kernel

end Page

end FlowAtlas
