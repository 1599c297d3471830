import Switchyard.Text.Letter
import Switchyard.Text.Blank
import Switchyard.Text.Quoted

/-!
# Paths

A path names a file by the directories that lead to it. Empty parts and single dots are left out, so
that several texts denote one path; the text of a path is the shortest of them.
-/

namespace Switchyard.Command

open Text

/-- A path: the slashes it begins with, none, one or two, and its parts. -/
structure Path where
  root : List Char
  parts : List (List Char)
deriving DecidableEq, Repr

namespace Path

/-- The root of a path text: two slashes stand for themselves, any other number for one. -/
def rootOf (cs : List Char) : List Char :=
  match cs.takeWhile (· = '/') with
  | [] => []
  | ['/', '/'] => ['/', '/']
  | _ => ['/']

/-- The path that a text denotes. -/
def ofText (text : String) : Path where
  root := rootOf text.toList
  parts := (split '/' text.toList).filter (fun part => !part.isEmpty && part != ['.'])

/-- The text of a path; that of the directory itself is a dot. -/
def text (path : Path) : String :=
  let joined := String.ofList path.root ++ "/".intercalate (path.parts.map String.ofList)
  if joined.isEmpty then "." else joined

/-- The last part of a path, empty if it has none. -/
def name (path : Path) : List Char :=
  path.parts.getLast?.getD []

/-- The ending of the last part from its last dot on, if characters stand on both sides of the
dot. -/
def suffix (path : Path) : List Char :=
  let reversed := path.name.reverse
  let ending := reversed.takeWhile (· != '.')
  let before := (reversed.dropWhile (· != '.')).drop 1
  if ending.isEmpty || before.isEmpty then [] else '.' :: ending.reverse

end Path

end Switchyard.Command
