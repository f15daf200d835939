import ShellEngine.Engine.CommandLine

/-!
# Command line

Runs the engine on a machine of its own: the arguments and the standard input go in, the two outputs
and the code come out. Nothing else is touched.
-/

open ShellEngine Machine

/-- The engine on a fresh machine with the given standard input. -/
def freshHost (input : Octets) : Host :=
  let h := CommandLine.install (Host.fresh.withInput input)
  { h with environment := ⟨[("PATH", "/usr/bin:/bin"), ("HOME", "/")]⟩ }

def main (args : List String) : IO UInt32 := do
  let input ← (← IO.getStdin).readToEnd
  let (code, h) := CommandLine.run args (freshHost (Octets.ofString input))
  let (out, h) := h.takeOutput outputChannel
  let (err, _) := h.takeOutput errorChannel
  IO.print (Octets.toText out)
  IO.eprint (Octets.toText err)
  return UInt32.ofNat (code % 256).toNat
