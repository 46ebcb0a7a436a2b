import Deferred.Finding

/-! The values that scripts compute with, and their written form: no blanks, the fields of a
record in the order of their names, and only those characters escaped that have to be. Results
are values too, as records of one field named for the result. -/

namespace Deferred.Script
open Text

/-- The users' errors that scripts raise: a failed operation, a failure of a type of the script's
own, and text that could not be formatted. -/
def ioCause (text : String) : Cause :=
  ⟨"io", text, "Custom \x7b kind: Other, error: " ++ quoted text ++ " \x7d"⟩

def boomCause (text : String) : Cause :=
  ⟨"boom", text, "Boom(" ++ quoted text ++ ")"⟩

def formatCause : Cause :=
  ⟨"fmt", "an error occurred when formatting an argument", "Error"⟩

inductive Value where
  | null
  | bool (value : Bool)
  | int (value : Int64)
  | text (value : String)
  | list (items : List Value)
  | record (fields : List (String × Value))

instance : Inhabited Value := ⟨.null⟩

namespace Value

mutual

def same : Value → Value → Bool
  | null, null => true
  | bool a, bool b => a == b
  | int a, int b => a == b
  | text a, text b => a == b
  | list a, list b => sameItems a b
  | record a, record b => sameFields a b
  | _, _ => false

def sameItems : List Value → List Value → Bool
  | [], [] => true
  | a :: as, b :: bs => same a b && sameItems as bs
  | _, _ => false

def sameFields : List (String × Value) → List (String × Value) → Bool
  | [], [] => true
  | (n, a) :: as, (m, b) :: bs => n == m && same a b && sameFields as bs
  | _, _ => false

end

instance : BEq Value := ⟨same⟩

/-- The control characters below the space are escaped, by a letter where they have one. -/
def writeChar (c : Char) : String :=
  if c = '"' then "\\\""
  else if c = '\\' then "\\\\"
  else if c = '\x08' then "\\b"
  else if c = '\x0c' then "\\f"
  else if c = '\n' then "\\n"
  else if c = '\r' then "\\r"
  else if c = '\t' then "\\t"
  else if c.toNat < 0x10 then "\\u000" ++ hexDigits c.toNat
  else if c.toNat < 0x20 then "\\u00" ++ hexDigits c.toNat
  else String.singleton c

def writeText (text : String) : String :=
  "\"" ++ String.join (text.toList.map writeChar) ++ "\""

mutual

def compact : Value → String
  | null => "null"
  | bool true => "true"
  | bool false => "false"
  | int value => toString value.toInt
  | text value => writeText value
  | list items => "[" ++ compactItems items ++ "]"
  | record fields => "\x7b" ++ compactFields fields ++ "\x7d"

def compactItems : List Value → String
  | [] => ""
  | [item] => compact item
  | item :: items => compact item ++ "," ++ compactItems items

def compactFields : List (String × Value) → String
  | [] => ""
  | [(name, value)] => writeText name ++ ":" ++ compact value
  | (name, value) :: fields => writeText name ++ ":" ++ compact value ++ "," ++ compactFields fields

end

def ofNat (n : Nat) : Value := int (Int64.ofNat n)

def kindName : Error.Kind → String
  | .failed => "failed"
  | .message => "message"
  | .panicked => "panicked"
  | .invalidJoin => "invalid_join"
  | .bottom => "bottom"

/-- The types of users' errors that scripts can tell apart. -/
def originName (cause : Cause) : String :=
  if cause.origin = "io" || cause.origin = "boom" then cause.origin else "other"

def ofError (error : Error) : Value :=
  let type := match error.cause? with
    | some cause => [("type", text (originName cause))]
    | none => []
  record <|
    [("kind", text (kindName error.kind)), ("message", text error.bareText),
      ("text", text error.text)] ++ type

def ofVerdict : Verdict Value → Value
  | .success value => record [("success", value)]
  | .failure error => record [("failure", ofError error)]

def ofFinding : Finding Value → Value
  | .found value => record [("some", value)]
  | .absent => record [("none", bool true)]
  | .failed error => record [("failure", ofError error)]

def ofOption : Option Value → Value
  | some value => record [("some", value)]
  | none => record [("none", bool true)]

/-- The number that items are sorted by. -/
def sortKey : Value → Int
  | int value => value.toInt
  | list (int value :: _) => value.toInt
  | _ => 0

def sorted (items : List Value) : List Value :=
  items.mergeSort fun a b => a.sortKey ≤ b.sortKey

end Value
end Deferred.Script
