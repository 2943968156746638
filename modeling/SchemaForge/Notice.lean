import SchemaForge.Target

/-! The lines with which every file opens. -/
namespace SchemaForge

/-- What is known of the copyright notice. -/
inductive Notice where
  /-- No option says where the notice is. -/
  | unnamed
  /-- The file that should hold the notice does not exist. -/
  | absent
  | text (s : String)
  deriving DecidableEq, Repr

namespace Notice

def lines : Notice → Checked (List String)
  | unnamed => throw (.missing "copyright")
  | absent => pure []
  | text s => pure (Text.fileLines s)

/-- Every three stars in a row become three blanks. -/
def blankStars : List Char → List Char
  | '*' :: '*' :: '*' :: rest => ' ' :: ' ' :: ' ' :: blankStars rest
  | c :: rest => c :: blankStars rest
  | [] => []

/-- A line of a block comment as a line of a triple-quoted text. -/
def quotedLine (line : String) : String :=
  if Text.startsWith "/**" line || Text.startsWith "**/" line then "\"\"\""
  else if line == "***" then ""
  else if Text.startsWith "***" line then String.ofList (blankStars line.toList)
  else line

end Notice

/-- The opening lines of a file of the target language. -/
def Target.opening (t : Target) (notice : Notice) : Checked (List String) := do
  let lines ← notice.lines
  return match t with
    | .java => lines ++ ["package io.nem.symbol.catapult.builders;", ""]
    | .typescript => lines
    | .python => ["#!/usr/bin/python"] ++ lines.map Notice.quotedLine ++
        ["# pylint: disable=W0622,W0612,C0301,R0904", ""]

end SchemaForge
