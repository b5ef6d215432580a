import FlowAtlas.Workspace.Folder
/-! Where a command is carried out, as far as it can look: the working folder and what is found there. -/
namespace FlowAtlas.Command

structure Surroundings where
  root : Location
  name : String
  find : Location → Found

def Surroundings.ofFolder (f : Folder) : Surroundings := ⟨⟨f.root, []⟩, f.name, f.find⟩

end FlowAtlas.Command
