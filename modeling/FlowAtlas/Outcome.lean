/-! Taking the value out of a result: a failed result is refused with the text of its error. -/
namespace FlowAtlas

inductive UnwrapFault
  | failed (error : String)
  deriving DecidableEq, Repr

def UnwrapFault.message : UnwrapFault → String
  | failed error => "Called unwrap on Err: " ++ error

def unwrap {ε α : Type} (describe : ε → String) : Except ε α → Except UnwrapFault α
  | .ok value => .ok value
  | .error e => .error (.failed (describe e))

end FlowAtlas
