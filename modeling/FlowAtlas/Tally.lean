/-! Counting texts. -/
namespace FlowAtlas

def textLe (a b : String) : Bool := !decide (b < a)

def sortTexts (texts : List String) : List String := texts.mergeSort textLe

def tally (texts : List String) : List (String × Nat) :=
  (sortTexts texts.eraseDups).map fun t => (t, texts.count t)

end FlowAtlas
