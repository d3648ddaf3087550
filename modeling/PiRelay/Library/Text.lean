/-! Lines and white space of a text, as the text functions of the source know them. -/
namespace Library

/-- The characters of the property `White_Space`. -/
def isWhitespace (char : Char) : Bool :=
  (0x9 ≤ char.toNat && char.toNat ≤ 0xd) || (0x2000 ≤ char.toNat && char.toNat ≤ 0x200a)
    || [0x20, 0x85, 0xa0, 0x1680, 0x2028, 0x2029, 0x202f, 0x205f, 0x3000].contains char.toNat

/-- A line without the carriage return before its line feed. -/
def withoutCarriageReturn (line : List Char) : List Char :=
  match line.getLast? with
  | some '\r' => line.dropLast
  | _ => line

def linesAfter (line : List Char) : List Char → List (List Char)
  | [] => if line.isEmpty then [] else [line]
  | char :: rest =>
    if char = '\n' then withoutCarriageReturn line :: linesAfter [] rest
    else linesAfter (line ++ [char]) rest

/-- The lines of a text; the last need not be ended. -/
def lines (text : List Char) : List (List Char) := linesAfter [] text

def trim (text : List Char) : List Char :=
  ((text.dropWhile isWhitespace).reverse.dropWhile isWhitespace).reverse

def stripPrefix (start text : List Char) : Option (List Char) :=
  if start.isPrefixOf text then some (text.drop start.length) else none

end Library
