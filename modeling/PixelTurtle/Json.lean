import PixelTurtle.Number.Shortest
import PixelTurtle.Text.Quoted

/-!
# Document values

Settings, request bodies and the answers to a host are documents: trees of objects, lists, texts and
numbers, where integers and reals are different things.

* `Json` is the type of documents.
* `Json.get?` looks a field up.
* `Json.truthy` tells whether a value counts as true.
* `Json.kind` names the kind of a value in messages, and `Json.display` shows a value in a message.
* `Json.render` writes a document with an indentation of two blanks per level.
-/

namespace PixelTurtle

/-- A document. -/
inductive Json
  | null
  | bool (value : Bool)
  | int (value : Int)
  | real (value : Float)
  | str (value : String)
  | arr (items : List Json)
  | obj (fields : List (String × Json))
  deriving Inhabited

namespace Json

def isNull : Json → Bool
  | .null => true
  | _ => false

/-- The fields of an object. -/
def fields : Json → List (String × Json)
  | .obj fields => fields
  | _ => []

/-- The field `key` of an object. -/
def get? (j : Json) (key : String) : Option Json :=
  j.fields.lookup key

/-- The field `key`, where a field that is null counts as missing. -/
def present? (j : Json) (key : String) : Option Json :=
  match j.get? key with
  | some .null => none
  | v => v

/-- A value that may be missing; null stands for a missing one. -/
def ofOption {α : Type} (f : α → Json) : Option α → Json
  | some a => f a
  | none => .null

/-- Whether a value counts as true: all but null, zero and what is empty. -/
def truthy : Json → Bool
  | .null => false
  | .bool b => b
  | .int n => n != 0
  | .real x => x != 0
  | .str s => !s.isEmpty
  | .arr items => !items.isEmpty
  | .obj fields => !fields.isEmpty

/-- The name of the kind of a value, as messages give it. -/
def kind : Json → String
  | .null => "NoneType"
  | .bool _ => "bool"
  | .int _ => "int"
  | .real _ => "float"
  | .str _ => "str"
  | .arr _ => "list"
  | .obj _ => "dict"

/-! ## Values in messages -/

mutual
/-- A value as a message shows it. -/
def display : Json → String
  | .null => "None"
  | .bool true => "True"
  | .bool false => "False"
  | .int n => toString n
  | .real x => Number.text x
  | .str s => Text.quote s
  | .arr items => "[" ++ displayItems items ++ "]"
  | .obj fields => "\x7b" ++ displayFields fields ++ "\x7d"

/-- The items of a list as a message shows them. -/
def displayItems : List Json → String
  | [] => ""
  | [j] => display j
  | j :: rest => display j ++ ", " ++ displayItems rest

/-- The fields of an object as a message shows them. -/
def displayFields : List (String × Json) → String
  | [] => ""
  | [(k, v)] => Text.quote k ++ ": " ++ display v
  | (k, v) :: rest => Text.quote k ++ ": " ++ display v ++ ", " ++ displayFields rest
end

/-- A value as plain text: a text as it is, another value as a message shows it. -/
def plain : Json → String
  | .str s => s
  | j => display j

/-! ## Written documents -/

/-- A character inside a written text: all but plain ASCII is written by its number, in two halves
when it lies beyond the basic plane. -/
def escapeChar (c : Char) : String :=
  let n := Text.codePoint c
  let unit (u : Nat) : String := "\\u" ++ String.ofList (Text.hex 4 u)
  if c == '"' then "\\\""
  else if c == '\\' then "\\\\"
  else if c == '\n' then "\\n"
  else if c == '\r' then "\\r"
  else if c == '\t' then "\\t"
  else if n == 8 then "\\b"
  else if n == 12 then "\\f"
  else if 0x20 ≤ n && n < 0x7F then c.toString
  else if n < 0x10000 then unit n
  else unit (0xD800 + (n - 0x10000) / 0x400) ++ unit (0xDC00 + (n - 0x10000) % 0x400)

/-- A written text. -/
def renderText (s : String) : String :=
  s.foldl (fun out c => out ++ escapeChar c) "\"" ++ "\""

/-- A written real number. -/
def renderReal (x : Float) : String :=
  if x.isNaN then "NaN"
  else if x.isInf then (if x < 0 then "-Infinity" else "Infinity")
  else Number.text x

/-- The start of a line at an indentation level. -/
def newline (level : Nat) : String :=
  String.ofList ('\n' :: List.replicate (2 * level) ' ')

mutual
/-- A written document, nested `level` deep. -/
def renderAt (level : Nat) : Json → String
  | .null => "null"
  | .bool true => "true"
  | .bool false => "false"
  | .int n => toString n
  | .real x => renderReal x
  | .str s => renderText s
  | .arr [] => "[]"
  | .arr (j :: rest) =>
    "[" ++ newline (level + 1) ++ renderAt (level + 1) j ++ renderItems (level + 1) rest ++
      newline level ++ "]"
  | .obj [] => "\x7b\x7d"
  | .obj ((k, v) :: rest) =>
    "\x7b" ++ newline (level + 1) ++ renderText k ++ ": " ++ renderAt (level + 1) v ++
      renderFields (level + 1) rest ++ newline level ++ "\x7d"

/-- The items of a list after its first. -/
def renderItems (level : Nat) : List Json → String
  | [] => ""
  | j :: rest => "," ++ newline level ++ renderAt level j ++ renderItems level rest

/-- The fields of an object after its first. -/
def renderFields (level : Nat) : List (String × Json) → String
  | [] => ""
  | (k, v) :: rest =>
    "," ++ newline level ++ renderText k ++ ": " ++ renderAt level v ++ renderFields level rest
end

/-- A written document. -/
def render (j : Json) : String :=
  renderAt 0 j

end Json

end PixelTurtle
