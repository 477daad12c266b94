import OppNet.Command.Execution

/-!
# OppNet.Main

The command line on the files of the machine.
-/

namespace OppNet

def machineStorage : Storage IO where
  read path := try some <$> IO.FS.readFile path catch _ => pure none
  write path text := try IO.FS.writeFile path text; pure true catch _ => pure false

end OppNet

def main (arguments : List String) : IO UInt32 := do
  let outcome ← (OppNet.Request.ofArguments arguments).answer OppNet.machineStorage
  IO.print outcome.output
  IO.eprint outcome.complaint
  return outcome.code.toUInt32
