import PadRemap.Cli

/-! The program: it reads the files that the command line leads to and prints the outcome. -/

namespace PadRemap

def readFile (path : String) : IO (String × Option (List UInt8)) := do
  try
    let bytes ← IO.FS.readBinFile path
    return (path, some bytes.toList)
  catch _ => return (path, none)

/-- The files that a command line may need: the configuration and the capture files it names. -/
def readFiles (args : List String) : IO (List (String × Option (List UInt8))) := do
  match Cli.parse args {} with
  | .ok (some request) =>
    let config ← readFile request.path
    match Config.load config.2 with
    | .ok c => return config :: (← c.settings.replay.mapM readFile)
    | .error _ => return [config]
  | _ => return []

end PadRemap

def main (args : List String) : IO UInt32 := do
  let files ← PadRemap.readFiles args
  let outcome := PadRemap.Cli.run (fun path => (files.lookup path).join) args
  for line in outcome.log do
    IO.eprintln line
  IO.print outcome.stdout
  unless outcome.stderr.isEmpty do
    IO.eprintln outcome.stderr
  return outcome.code
