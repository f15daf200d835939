import ShellEngine.Text.Dict

/-!
# Aliases

The alias table of the engine is a dictionary. While a script runs, the definitions in a table that
scripts share may change; `merge` carries what changed there into the engine's own table and leaves
everything else alone.
-/

namespace ShellEngine

/-- Definitions of aliases by name. -/
abbrev Aliases := Dict

namespace Aliases

/-- Applies to `table` what changed from `before` to `after`: definitions that are new or different
are taken over, and names that are gone are forgotten. -/
def merge (table before after : Aliases) : Aliases :=
  let updated := after.entries.foldl
    (fun t e ↦ if before.get? e.1 = some e.2 then t else t.insert e.1 e.2) table
  (before.names.filter fun name ↦ !after.contains name).foldl Dict.erase updated

end Aliases

end ShellEngine
