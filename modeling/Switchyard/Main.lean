import Std.Time.Format
import Std.Time.Zoned
import Switchyard.Command.Perform

/-!
# The command line

The outer layer: arguments, files and the clock come from the system, and what a command line writes
goes to its streams.
-/

namespace Switchyard.Command

/-- The fault that an error of the system is. -/
def FileFault.ofSystem : IO.Error → FileFault
  | .inappropriateType _ code _ => if code = 21 then .isDirectory else .notDirectory
  | .noFileOrDirectory _ _ _ => .missing
  | _ => .missing

instance : Files IO where
  readFile path := do
    try
      let bytes ← IO.FS.readBinFile (Text.toCharacters path.text)
      return .ok bytes.toList
    catch error => return .error (.ofSystem error)
  writeFile path text := do
    try
      let isWhole := !Text.hasHalf text
      IO.FS.writeFile (Text.toCharacters path.text) (if isWhole then Text.toCharacters text else "")
      return if isWhole then .ok () else .error .unencodable
    catch error => return .error (.ofSystem error)

/-- The date as tables show it. -/
def today : IO String := do
  let now ← Std.Time.PlainDateTime.now
  return now.format "uuuu-MM-dd HH:mm:ss"

end Switchyard.Command

open Switchyard Switchyard.Command in
/-- Perform the command line of the process. -/
def main (arguments : List String) : IO UInt32 := do
  let result ← perform (← today) (arguments.map Text.ofCharacters)
  IO.print (Text.toCharacters result.out)
  IO.eprint (Text.toCharacters result.err)
  match result.exit with
  | .ok code => return code.toUInt32
  | .error _ => return 1
