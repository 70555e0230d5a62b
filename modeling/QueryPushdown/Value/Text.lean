import QueryPushdown.Decimal.Style
import QueryPushdown.Value.Basic

/-!
# Written forms of values

`Value.written` is the form inside requests and messages, with quoted texts. `Value.json` is
compact JSON text, where numbers that are not finite become `null`.
-/

namespace QueryPushdown.Value

mutual

/-- The form of a value inside requests and messages. -/
def written : Value → String
  | null => "null"
  | bool b => if b then "true" else "false"
  | int i => toString i.toInt
  | float x => Decimal.Style.literal.render x
  | text s => Text.quote s
  | list items => "[" ++ ", ".intercalate (writtenItems items) ++ "]"
  | mapping fields => "\x7b" ++ ", ".intercalate (writtenFields fields) ++ "\x7d"

def writtenItems : List Value → List String
  | [] => []
  | v :: rest => written v :: writtenItems rest

def writtenFields : List (String × Value) → List String
  | [] => []
  | (name, v) :: rest => (Text.quote name ++ ": " ++ written v) :: writtenFields rest

end

/-- Digit of a number below sixteen, in lower case. -/
def hexDigit (n : Nat) : Char := (Nat.toDigits 16 (n % 16)).headD '0'

/-- One character of a JSON string. -/
def jsonEscape (c : Char) : List Char :=
  if c = '"' then ['\\', '"']
  else if c = '\\' then ['\\', '\\']
  else if c = '\x08' then ['\\', 'b']
  else if c = '\t' then ['\\', 't']
  else if c = '\n' then ['\\', 'n']
  else if c = '\x0c' then ['\\', 'f']
  else if c = '\r' then ['\\', 'r']
  else if c.toNat < 32 then
    ['\\', 'u', '0', '0', hexDigit (c.toNat / 16), hexDigit c.toNat]
  else [c]

def jsonText (s : String) : String :=
  String.ofList ('"' :: (s.toList.flatMap jsonEscape ++ ['"']))

mutual

/-- Compact JSON text. -/
def json : Value → String
  | null => "null"
  | bool b => if b then "true" else "false"
  | int i => toString i.toInt
  | float x => if x.isFinite then Decimal.Style.json.render x else "null"
  | text s => jsonText s
  | list items => "[" ++ ",".intercalate (jsonItems items) ++ "]"
  | mapping fields => "\x7b" ++ ",".intercalate (jsonFields fields) ++ "\x7d"

def jsonItems : List Value → List String
  | [] => []
  | v :: rest => json v :: jsonItems rest

def jsonFields : List (String × Value) → List String
  | [] => []
  | (name, v) :: rest => (jsonText name ++ ":" ++ json v) :: jsonFields rest

end

end QueryPushdown.Value
