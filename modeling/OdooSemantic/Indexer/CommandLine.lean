import OdooSemantic.Lib.ArgParse

/-!
# `src/indexer/__main__.py` — the command line

`_build_parser` with its five subcommands. Two of them, `index-repo` and `seed-patterns`,
declare `--job-id`; the other three do not know the option.
-/

namespace OdooSemantic
namespace CommandLine

open ArgParse

/-- A value in the namespace. -/
inductive ArgValue where
  | none
  | str (s : String)
  | int (n : Int)
  | bool (b : Bool)
deriving DecidableEq

def strType (s : String) : Option ArgValue := some (.str s)

def intType (s : String) : Option ArgValue := (PyText.int s).map .int

/-- `add_argument(name, default=None)` -/
def strArgument (name dest : String) (required : Bool) : OptionAction ArgValue :=
  ⟨[name], dest, .store strType, some .none, required⟩

/-- `add_argument(name, type=int, default=…)` -/
def intArgument (name dest : String) (default : ArgValue) : OptionAction ArgValue :=
  ⟨[name], dest, .store intType, some default, false⟩

/-- `add_argument(name, action="store_true")` -/
def flagArgument (name dest : String) : OptionAction ArgValue :=
  ⟨[name], dest, .storeConst (.bool true), some (.bool false), false⟩

def profileArg : OptionAction ArgValue := strArgument "--profile" "profile" false
def allArg : OptionAction ArgValue := flagArgument "--all" "all"
def noEmbedArg : OptionAction ArgValue := flagArgument "--no-embed" "no_embed"
def verboseArg : OptionAction ArgValue := flagArgument "--verbose" "verbose"
def jobIdArg : OptionAction ArgValue := intArgument "--job-id" "job_id" .none
def maxWorkersArg : OptionAction ArgValue := intArgument "--max-workers" "max_workers" (.int 1)
def fullArg : OptionAction ArgValue := flagArgument "--full" "full"
def profileWorkersArg : OptionAction ArgValue :=
  intArgument "--profile-workers" "profile_workers" (.int 1)
def gcArg : OptionAction ArgValue := flagArgument "--gc" "gc"
def versionArg : OptionAction ArgValue := strArgument "--version" "version" false
def patternsFileArg : OptionAction ArgValue := strArgument "--patterns-file" "patterns_file" false
def forceArg : OptionAction ArgValue := flagArgument "--force" "force"

/-- `index-repo` -/
def subRepo : ArgumentParser ArgValue where
  options := [profileArg, allArg, noEmbedArg, verboseArg, jobIdArg, maxWorkersArg, fullArg,
    profileWorkersArg, gcArg]
  exclusive := [["profile", "all"]]

/-- `index-core` -/
def subCore : ArgumentParser ArgValue where
  options := [strArgument "--source" "source" true, strArgument "--version" "version" true,
    strArgument "--static-data-dir" "static_data_dir" false]

/-- `reembed-stubs` -/
def subReembed : ArgumentParser ArgValue where
  options := [strArgument "--profile" "profile" true]

/-- `audit-repo` -/
def subAudit : ArgumentParser ArgValue where
  options := [strArgument "--profile" "profile" true, strArgument "--output" "output" true]

/-- `seed-patterns` -/
def subSeed : ArgumentParser ArgValue where
  options := [versionArg, noEmbedArg, patternsFileArg, forceArg, jobIdArg]

/-- `_build_parser()` -/
def buildParser : CommandParser ArgValue where
  commands := [("index-repo", subRepo), ("index-core", subCore), ("reembed-stubs", subReembed),
    ("audit-repo", subAudit), ("seed-patterns", subSeed)]

/-! ## Blocks of options -/

/-- An option with a text. -/
def strBlock (a : OptionAction ArgValue) (name text : String) : Block ArgValue :=
  ⟨a, name, some text, .str text⟩

/-- An option with a number. -/
def intBlock (a : OptionAction ArgValue) (name : String) (n : Nat) : Block ArgValue :=
  ⟨a, name, some (PyText.str n), .int n⟩

def flagBlock (a : OptionAction ArgValue) (name : String) : Block ArgValue :=
  ⟨a, name, none, .bool true⟩

section Fits

variable {p : ArgumentParser ArgValue} {name dest : String}

theorem fits_strBlock {required : Bool} {text : String}
    (hname : p.reading name = .option (strArgument name dest required) .nothing)
    (htext : p.Plain text) : p.Fits (strBlock (strArgument name dest required) name text) where
  name := hname
  text := ⟨ArgumentParser.reading_eq_argument_iff.mpr htext, rfl⟩

/-- A number begins with a digit. -/
theorem plain_str (n : Nat) : p.Plain (PyText.str n) := by
  refine Or.inl ?_
  rw [PyText.str, Nat.toString_eq_ofList_toDigits, String.toList_ofList]
  cases hds : Nat.toDigits 10 n with
  | nil => exact absurd hds Nat.toDigits_ne_nil
  | cons c cs =>
    intro h
    have hdigit : c.isDigit = true := @Nat.isDigit_of_mem_toDigits 10 n c (by decide) (by decide)
      (hds ▸ List.mem_cons_self)
    rw [List.head?_cons, Option.some.injEq] at h
    rw [h] at hdigit
    exact absurd hdigit (by decide)

theorem fits_intBlock {default : ArgValue} (n : Nat)
    (hname : p.reading name = .option (intArgument name dest default) .nothing) :
    p.Fits (intBlock (intArgument name dest default) name n) where
  name := hname
  text := ⟨ArgumentParser.reading_eq_argument_iff.mpr (plain_str n), by
    show (PyText.int (PyText.str n)).map ArgValue.int = _
    rw [PyText.int_str]
    rfl⟩

theorem fits_flagBlock (hname : p.reading name = .option (flagArgument name dest) .nothing) :
    p.Fits (flagBlock (flagArgument name dest) name) where
  name := hname
  text := rfl

end Fits

end CommandLine
end OdooSemantic
