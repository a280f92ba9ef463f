import SageNotation.Text.Quoted

/-!
Plain data: null, truth values, integers, texts, lists and objects whose members
keep their order, and their written form.

`pretty` writes two spaces of indentation per level, one member or element per
line, and nothing inside an empty list or object.  Only the double quote, the
backslash and the characters below U+0020 are escaped.
-/

namespace SageNotation

inductive Data where
  | null
  | bool (value : Bool)
  | int (value : Int)
  | text (value : String)
  | list (items : List Data)
  | object (members : List (String × Data))

namespace Data

def escapeChar (character : Char) : List Char :=
  if character = '"' then ['\\', '"']
  else if character = '\\' then ['\\', '\\']
  else if character = '\n' then ['\\', 'n']
  else if character = '\r' then ['\\', 'r']
  else if character = '\t' then ['\\', 't']
  else if character.toNat = 12 then ['\\', 'f']
  else if character.toNat = 8 then ['\\', 'b']
  else if character.toNat < 32 then '\\' :: 'u' :: Text.hexDigits 4 character.toNat
  else [character]

def quote (text : String) : String :=
  String.ofList ('"' :: (text.toList.flatMap escapeChar ++ ['"']))

def indentation (depth : Nat) : String :=
  String.ofList (List.replicate (2 * depth) ' ')

/-- Lay out written entries between two brackets, one a line. -/
def block (opening closing : String) (depth : Nat) (entries : List String) : String :=
  match entries with
  | [] => opening ++ closing
  | _ =>
      opening ++ "\n" ++
        String.intercalate ",\n" (entries.map (indentation (depth + 1) ++ ·)) ++
        "\n" ++ indentation depth ++ closing

mutual

def prettyAt (depth : Nat) : Data → String
  | null => "null"
  | bool value => if value then "true" else "false"
  | int value => toString value
  | text value => quote value
  | list items => block "[" "]" depth (prettyItems (depth + 1) items)
  | object members => block "\x7b" "\x7d" depth (prettyMembers (depth + 1) members)

def prettyItems (depth : Nat) : List Data → List String
  | [] => []
  | item :: others => prettyAt depth item :: prettyItems depth others

def prettyMembers (depth : Nat) : List (String × Data) → List String
  | [] => []
  | (key, value) :: others =>
      (quote key ++ ": " ++ prettyAt depth value) :: prettyMembers depth others

end

def pretty (data : Data) : String :=
  prettyAt 0 data

end Data

end SageNotation
