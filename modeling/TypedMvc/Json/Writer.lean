import TypedMvc.Value.Text

namespace TypedMvc.Json

open Text

def escapeUnit (n : Nat) : String := "\\u" ++ hex 4 n

def escapeChar (c : Char) : String :=
  let n := c.toNat
  if c = '"' then "\\\""
  else if c = '\\' then "\\\\"
  else if c = '\n' then "\\n"
  else if c = '\r' then "\\r"
  else if c = '\t' then "\\t"
  else if n = 8 then "\\b"
  else if n = 12 then "\\f"
  else if 0x20 ≤ n ∧ n ≤ 0x7E then String.singleton c
  else if n < 0x10000 then escapeUnit n
  else escapeUnit (0xD800 + (n - 0x10000) / 0x400) ++ escapeUnit (0xDC00 + (n - 0x10000) % 0x400)

def stringText (s : String) : String := "\"" ++ String.join (s.toList.map escapeChar) ++ "\""

def numberText : Binary64 → String
  | .nan => "NaN"
  | .infinite negative => if negative then "-Infinity" else "Infinity"
  | x => floatText x

-- How documents are laid out: what opens an inner line at a depth, and what separates two parts.
structure Style where
  start : Nat → String
  separator : String

def oneLine : Style := ⟨fun _ => "",", "⟩

def indented (width : Nat) : Style :=
  ⟨fun depth => "\n" ++ String.ofList (List.replicate (width * depth) ' '),","⟩

def keyText : Value → String
  | .null => "null"
  | .bool b => if b then "true" else "false"
  | v => v.text

def enclose (style : Style) (depth : Nat) (opening closing : String) (parts : List String) : String :=
  if parts.isEmpty then opening ++ closing
  else
    opening ++ style.start (depth + 1) ++
      (style.separator ++ style.start (depth + 1)).intercalate parts ++ style.start depth ++ closing

mutual

def render (style : Style) (depth : Nat) : Value → String
  | .null => "null"
  | .bool b => if b then "true" else "false"
  | .int i => integerText i
  | .float x => numberText x
  | .list items => enclose style depth "[" "]" (renderItems style (depth + 1) items)
  | .tuple items => enclose style depth "[" "]" (renderItems style (depth + 1) items)
  | .set items => enclose style depth "[" "]" (renderItems style (depth + 1) items)
  | .map entries => enclose style depth "\x7b" "\x7d" (renderEntries style (depth + 1) entries)
  | .str s => stringText s
  | .bytes content => stringText (Value.bytes content).text
  | .date d => stringText d.text
  | .moment m => stringText m.text
  | .numbered _ collection => render style depth collection
  | .again _ brackets => stringText brackets.dots
termination_by structural v => v

def renderItems (style : Style) (depth : Nat) : List Value → List String
  | [] => []
  | item :: rest => render style depth item :: renderItems style depth rest
termination_by structural items => items

def renderEntries (style : Style) (depth : Nat) : List (Value × Value) → List String
  | [] => []
  | (key,value) :: rest =>
    (stringText (keyText key) ++ ": " ++ render style depth value) :: renderEntries style depth rest
termination_by structural entries => entries

end

def document (v : Value) : String := render (indented 2) 0 v

def line (v : Value) : String := render oneLine 0 v

end TypedMvc.Json
