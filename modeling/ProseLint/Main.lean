import ProseLint.Service.CommandLine

/-! The program. It reads the files of a command line, runs the checks, and prints what
comes out. -/

namespace ProseLint.Terminal

/-- How the program is called. -/
def usage : String :=
  "usage: proselint [-h] [-f FORMAT] [-c CONF] [-r RESULT_FORMAT] [-l LIMIT] [-L LANG] [-v] " ++
    "FILES..."

/-- What stands at a path. Whatever is there and cannot be read counts as a directory. -/
def contentAt (path : Text) : IO FileContent := do
  try
    let bytes ← IO.FS.readBinFile (String.ofList path)
    return .bytes bytes.toList
  catch e =>
    match e with
    | .noFileOrDirectory _ _ _ => return .missing
    | _ => return .directory

/-- The files that a request names, read once. -/
def filesOf (r : Request) : IO (Text → FileContent) := do
  let paths := (r.conf.toList ++ r.files).map Path.normalize
  let contents ← paths.mapM fun p => do return (p, ← contentAt p)
  return fun p => (contents.lookup p).getD .missing

def faultText : ConfigurationFault → String
  | .rejected e => String.ofList e.message
  | .undecodable => "the configuration is not valid UTF-8"
  | .directory => "the configuration is a directory"
  | .unusable => "the configuration has a value of a wrong kind"
  | .tooLarge => "the configuration has a number that is too large"

def carryOut (r : Request) : IO UInt32 := do
  let logged := CommandLine.run (← filesOf r) r
  for line in logged.log do
    IO.eprintln (String.ofList line)
  match logged.result with
  | .ok printed =>
      IO.eprint (String.ofList printed.err)
      IO.print (String.ofList printed.out)
      return UInt32.ofNat printed.code
  | .error fault =>
      IO.eprintln (faultText fault)
      return 1

end ProseLint.Terminal

/-- The program: ends with 2 when it is called in a wrong way, with 1 when there is too much
wrong with the files, else with 0. -/
def main (args : List String) : IO UInt32 := do
  match ProseLint.Request.ofArguments (args.map String.toList) with
  | .error .help =>
      IO.println ProseLint.Terminal.usage
      return 0
  | .error .usage =>
      IO.eprintln ProseLint.Terminal.usage
      return 2
  | .ok r => ProseLint.Terminal.carryOut r
