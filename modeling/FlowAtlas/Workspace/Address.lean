import FlowAtlas.Text.Utf8
import FlowAtlas.Workspace.Location
/-! Addresses of files, from which a browser can open them. -/
namespace FlowAtlas

def isUnreserved (n : Nat) : Bool :=
  let c := Char.ofNat n
  c.isAlphanum || c = '_' || c = '.' || c = '-' || c = '~' || c = '/'

def percentEncode (s : String) : String :=
  String.ofList ((Text.Utf8.encode s).flatMap fun b =>
    if isUnreserved b.toNat then [Char.ofNat b.toNat]
    else '%' :: (Text.hexDigits 2 b.toNat).map Char.toUpper)

def addressStart : String := "file://"

def Location.address (l : Location) : String := addressStart ++ percentEncode l.text

end FlowAtlas
