import OdooSemantic.Indexer.Models
import OdooSemantic.Lib.Dict

/-!
# The flags of two versions

`compute_cli_flag_diff` of `src/indexer/parser_cli.py`. A flag is the flag of a command, and that is
how flags are parsed and stored; here they are compared by their names.
-/

namespace OdooSemantic

structure CLIFlagInfo where
  flagName : String
  commandName : String
  odooVersion : String
  status : String := "stable"
  replacementFlagName : Option String := none
deriving DecidableEq

namespace CLIFlagInfo

/-- What a flag is stored under, in its version. -/
def id (f : CLIFlagInfo) : String × String := (f.flagName, f.commandName)

end CLIFlagInfo

structure CLIFlagDiff where
  added : List CLIFlagInfo
  removed : List CLIFlagInfo
  stable : List (CLIFlagInfo × CLIFlagInfo)
  replaced : List (String × String)

/-- `compute_cli_flag_diff(old_flags, new_flags)` -/
def computeCliFlagDiff (old new : List CLIFlagInfo) : CLIFlagDiff :=
  let byOld := Dict.collect CLIFlagInfo.flagName old
  let byNew := Dict.collect CLIFlagInfo.flagName new
  let replaced := old.filterMap fun f =>
    (truthy f.replacementFlagName).bind fun replacement =>
      if byNew.get? f.flagName = none ∧ byNew.get? replacement ≠ none then
        some (f.flagName, replacement)
      else none
  { added := byNew.values.filter fun n => byOld.get? n.flagName = none
    removed := byOld.values.filter fun o =>
      byNew.get? o.flagName = none ∧ o.flagName ∉ replaced.map Prod.fst
    stable := byNew.values.filterMap fun n => (byOld.get? n.flagName).map fun o => (o, n)
    replaced }

end OdooSemantic
