import QueryDialect.Console

namespace QueryDialect.Console

/-- The words of this program, which does not look for the place of a fault. -/
def plainWording : Wording where
  notJson _ := "not a JSON value"
  notOptions _ := "not the value of options"

def readConfig : IO FileContent := do
  try
    return .bytes (← IO.FS.readBinFile configFile)
  catch
    | .noFileOrDirectory .. => return .missing
    | error => return .unreadable (toString error)

partial def converse (options : Options) (input output : IO.FS.Stream) : IO UInt32 := do
  let line ← input.getLine
  if line.isEmpty then return 0
  match reply plainWording options line with
  | .leave => return 0
  | .abort => return abortCode.toUInt32
  | .silence => converse options input output
  | .text text =>
    output.putStrLn text
    output.flush
    converse options input output

end QueryDialect.Console

open QueryDialect.Console in
def main : IO UInt32 := do
  let output ← IO.getStdout
  let config ← readConfig
  for line in opening plainWording config do
    output.putStrLn line
  output.flush
  converse (loadOptions plainWording config) (← IO.getStdin) output
