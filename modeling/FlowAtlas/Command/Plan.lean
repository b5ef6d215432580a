import FlowAtlas.Chain.FileName
import FlowAtlas.Command.Request
import FlowAtlas.Command.Step
import FlowAtlas.Command.Surroundings
import FlowAtlas.Settings.Initial
import FlowAtlas.Statistics
/-! What is done for each request. A command looks at files first and then takes its steps. -/
namespace FlowAtlas.Command

def noteAll (notices : List Notice) : List Step := notices.map .note

def withInventory (w : Surroundings) (file : String) (plan : Inventory → Plan) : Plan :=
  let location := Location.parse file
  if file.contains '\x00' then ⟨[], .stopped (.file ⟨.nulCharacter, location⟩)⟩
  else
    match Inventory.load location (w.find location) with
    | .error (.error e) => ⟨[.sayFailed e.message], .failed⟩
    | .error stop => ⟨[], .stopped (.load stop)⟩
    | .ok inv =>
      (plan inv).after
        (.note (.loaded location.text inv.elements.length inv.relationships.length) ::
          if inv.isEmpty then [.sayWarning (file ++ " contains no elements or relationships")] else [])

def withSettings (w : Surroundings) (plan : Settings → Plan) : Plan :=
  let location := Settings.location w.root
  match Settings.load location (w.find location) with
  | .error stop => ⟨[], .stopped (.settings stop)⟩
  | .ok loaded =>
    (plan loaded.settings).after
      (noteAll (loaded.ignored.map (.ignoredSettings location.text)).toList)

def planRender (w : Surroundings) (file : String) (kind : DiagramKind) (output : Option String) : Plan :=
  withInventory w file fun inv =>
    withSettings w fun settings =>
      let notices := noteAll ((Account.ofDiagram inv kind).notices inv.clashes)
      let text := inv.diagram settings.methodLimit kind
      match output with
      | none => ⟨notices ++ [.print (withoutColours text)], .done⟩
      | some path =>
        let location := Location.parse path
        ⟨notices ++ [.makeFolders location.parent, .write location text,
          .sayDone ("Wrote " ++ location.text)], .done⟩

def chainsGrid (chains : List Chain) : Grid where
  title := "Chains (" ++ toString chains.length ++ ")"
  columns := [⟨"#", .right⟩, { header := "Chain" }, { header := "Root" }, ⟨"Nodes", .right⟩, ⟨"Edges", .right⟩]
  rows := chains.zipIdx.map fun (c, i) =>
    [toString (i + 1), c.name, c.root.text, toString c.nodes.length, toString c.edges.length]

def exportSteps (ix : Index) (folder : Location) (position : Nat) : List Chain → List Step
  | [] => []
  | c :: rest =>
    let location := folder.child [chainFileName position c.name]
    noteAll ((Account.ofDrawing [c]).notices []) ++
      [.write location (Inventory.chainFigure ix c).text, .note (.written location.text)] ++
      exportSteps ix folder (position + 1) rest

def planChains (w : Surroundings) (file : String) (perCommand : Bool) (folder : Option String)
    (asJson : Bool) : Plan :=
  withInventory w file fun inv =>
    let account := if perCommand then Account.ofCommandChains inv else Account.ofChains inv
    let chains := (if perCommand then inv.commandChains else inv.chains).map (·.toChain)
    let steps :=
      if asJson then [.say (Json.array (chains.map (·.toJson))).indented]
      else if chains.isEmpty then [.sayWarning "No chains found"]
      else
        match folder with
        | none =>
          [.display (.grid (chainsGrid chains)), .sayHint "Use -o DIR to export one Mermaid file per chain"]
        | some path =>
          let location := Location.parse path
          .makeFolders location :: exportSteps inv.index location 1 chains ++
            [.sayDone ("Wrote " ++ toString chains.length ++ " chain diagram(s) to " ++ location.text)]
    ⟨noteAll (account.notices inv.clashes) ++ steps, .done⟩

def planPage (w : Surroundings) (file output : String) (title : Option String) (shown : Bool) : Plan :=
  withInventory w file fun inv =>
    withSettings w fun settings =>
      let choice := Page.Choice.list (settings.diagrams.map (·.name))
      let given := title.getD ""
      let options : Page.Options :=
        ⟨if given = "" then settings.title else given, settings.methodLimit, choice⟩
      let location := Location.parse output
      ⟨noteAll ((Account.ofGallery inv choice).notices inv.clashes) ++
        .write location (inv.page options) :: (if shown then [.browse location] else []) ++
        [.sayDone ("Visualization written to " ++ location.text)], .done⟩

def countsGrid (title label : String) (counts : List (String × Nat)) : Grid where
  title
  columns := [{ header := label }, ⟨"Count", .right⟩]
  rows := counts.map fun (name, count) => [name, toString count]

def summaryGrid (s : Statistics) : Grid where
  title := "Chains"
  showHeader := false
  columns := [{ header := "Metric" }, ⟨"Value", .right⟩]
  rows := [["Chain roots", toString s.roots], ["Command chains", toString s.commandChains],
    ["Orphan elements", toString s.orphans], ["Cycles", if s.hasCycles then "yes" else "no"]]

def planStatistics (w : Surroundings) (file : String) (asJson : Bool) : Plan :=
  withInventory w file fun inv =>
    let s := inv.statistics
    let steps :=
      if asJson then [.say s.toJson.indented]
      else
        [.display (.grid (countsGrid "Elements" "Category" s.elements)),
          .display (.grid (countsGrid "Relationships" "Call type" s.relationships)),
          .display (.grid (summaryGrid s))] ++
          if s.unresolvedReferences = 0 then []
          else [.sayWarning (toString s.unresolvedReferences ++ " reference(s) do not resolve to any element")]
    ⟨noteAll ((Account.ofStatistics inv).notices inv.clashes) ++ steps, .done⟩

def planStart (w : Surroundings) (force : Bool) : Plan :=
  let location := Settings.location w.root
  let heading := Step.display (.panel "[bold blue]codeflow Initialization[/bold blue]")
  match w.find location with
  | .fault fault => ⟨[heading], .stopped (.file fault)⟩
  | found =>
    if found ≠ .nothing ∧ !force then
      ⟨[heading,
        .display (.text ("[yellow]Configuration already exists at " ++ location.text ++ "[/yellow]")),
        .display (.text "Use --force to overwrite it.")], .done⟩
    else
      ⟨[heading, .makeFolders location.parent, .write location (Settings.initial w.name).fileText,
        .display (.text "\n✨ [bold green]Initialized successfully![/bold green]"),
        .display (.text ("   Config created at: [dim]" ++ location.text ++ "[/dim]"))], .done⟩

def helpText : String :=
  "Usage: codeflow [-v | --verbose] COMMAND\n\n" ++
  "  render FILE [-d DIAGRAM] [-o OUTPUT]\n" ++
  "  chains FILE [--commands] [-o FOLDER] [--json]\n" ++
  "  html FILE [-o OUTPUT] [-t TITLE] [--open]\n" ++
  "  stats FILE [--json]\n" ++
  "  init [--force]\n"

def versionText : String := "codeflow, version 0.1.0\n"

def Request.plan (w : Surroundings) : Request → Plan
  | .help => ⟨[.print helpText], .done⟩
  | .version => ⟨[.print versionText], .done⟩
  | .render file kind output => planRender w file kind output
  | .chains file perCommand folder asJson => planChains w file perCommand folder asJson
  | .page file output title shown => planPage w file output title shown
  | .statistics file asJson => planStatistics w file asJson
  | .start force => planStart w force

def Request.looksAt (root : Location) : Request → List Location
  | .help => []
  | .version => []
  | .render file _ _ => [Location.parse file, Settings.location root]
  | .chains file _ _ _ => [Location.parse file]
  | .page file _ _ _ => [Location.parse file, Settings.location root]
  | .statistics file _ => [Location.parse file]
  | .start _ => [Settings.location root]

end FlowAtlas.Command
