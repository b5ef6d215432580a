import FlowAtlas.Text.Utf8
import FlowAtlas.Yaml.Problem
/-! Why a text has no value: it is no document, or a scalar has no value in the type it is of. -/
namespace FlowAtlas.Yaml

inductive ScalarFault
  | badCode (code : Nat)
  | halfPair (code : Nat)
  | badInteger (base : Nat) (text : String)
  | longInteger (limit digits : Nat)
  | longPlaces
  | emptyNumber
  | badFloat (text : String)
  | badBool (text : String)
  | badTimestamp
  | timestampOfCollection
  | badYear (year : Nat)
  | badMonth
  | badDay
  | badHour
  | badMinute
  | badSecond
  | badOffset (seconds : Int)
  | endless
  deriving DecidableEq, Repr

inductive Fault
  | malformed (complaint : Complaint)
  | scalar (fault : ScalarFault)
  deriving DecidableEq, Repr

inductive ScanFault
  | malformed (complaint : Complaint)
  | badCode (code : Nat)
  | halfPair (code : Nat)
  | longInteger (limit digits : Nat)
  deriving DecidableEq, Repr

def ScanFault.fault : ScanFault → Fault
  | malformed complaint => .malformed complaint
  | badCode code => .scalar (.badCode code)
  | halfPair code => .scalar (.halfPair code)
  | longInteger limit digits => .scalar (.longInteger limit digits)

def spanText (seconds : Int) : String :=
  let days := Int.fdiv seconds 86400
  let rest := Int.fmod seconds 86400
  "datetime.timedelta(days=" ++ toString days ++
    (if rest = 0 then "" else ", seconds=" ++ toString rest) ++ ")"

def ScalarFault.codeLimit : Nat := 0x80000000

def ScalarFault.shownLength : Nat := 200

def ScalarFault.message : ScalarFault → String
  | badCode code =>
    if code < codeLimit then "chr() arg not in range(0x110000)" else "Python int too large to convert to C int"
  | halfPair code => "half of a surrogate pair: " ++ String.ofList (Text.hexDigits 4 code)
  | badInteger base text =>
    "invalid literal for int() with base " ++ toString base ++ ": " ++
      String.ofList ((Text.quote text.toList).take shownLength)
  | longInteger limit digits =>
    "Exceeds the limit (" ++ toString limit ++ " digits) for integer string conversion: value has " ++
      toString digits ++ " digits; use sys.set_int_max_str_digits() to increase the limit"
  | longPlaces => "int too large to convert to float"
  | emptyNumber => "string index out of range"
  | badFloat text => "could not convert string to float: " ++ quoted text
  | badBool text => quoted text
  | badTimestamp => "'NoneType' object has no attribute 'groupdict'"
  | timestampOfCollection => "expected string or bytes-like object, got 'list'"
  | badYear year => "year " ++ toString year ++ " is out of range"
  | badMonth => "month must be in 1..12"
  | badDay => "day is out of range for month"
  | badHour => "hour must be in 0..23"
  | badMinute => "minute must be in 0..59"
  | badSecond => "second must be in 0..59"
  | badOffset seconds =>
    "offset must be a timedelta strictly between -timedelta(hours=24) and timedelta(hours=24), not " ++
      spanText seconds ++ "."
  | endless => "maximum recursion depth exceeded"

end FlowAtlas.Yaml
