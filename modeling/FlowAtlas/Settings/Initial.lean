import FlowAtlas.Settings.Load
import FlowAtlas.Yaml.Writer
/-! The settings with which a project starts: the usual ones, under a title with the project's name. -/
namespace FlowAtlas.Settings

def initial (project : String) : Settings := { title := project ++ " architecture" }

def fileText (s : Settings) : String :=
  Yaml.Writer.entry "version" "1.0" ++ Yaml.Writer.entry titleField.wire s.title ++
    methodLimitField.wire ++ ": " ++ toString s.methodLimit ++ "\n" ++
    diagramsField.wire ++ ":\n" ++ String.join (s.diagrams.map fun kind => Yaml.Writer.item kind.name)

end FlowAtlas.Settings
