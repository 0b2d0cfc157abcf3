import Mathlib.Data.List.Basic
import OdooSemantic.Indexer.Models
import OdooSemantic.Lib.PosixPath

/-!
# `src/mcp/orm.py` — dotted field paths

`_traverse_field_chain` walks a path such as `partner_id.country_id.code` field by field, from the
model it is given. Every field but the last has to lead to another model. What the three validating
tools say of a path is what it says.

How a field is found on a model (`_lookup_field`) is a parameter here.
-/

namespace OdooSemantic

/-- What `_lookup_field` returns of a field. -/
structure FieldHit where
  ttype : Option String
  comodel : Option String
deriving DecidableEq

abbrev FieldLookup := String → String → Option FieldHit

structure ChainStep where
  model : String
  field : String
  ttype : Option String
  comodel : Option String
deriving DecidableEq

inductive ChainReason where
  | missing
  | notRelational
  | danglingComodel
deriving DecidableEq

structure ChainError where
  step : Nat
  model : String
  field : String
  ttype : Option String
  reason : ChainReason
deriving DecidableEq

/-- What `_traverse_field_chain` returns. -/
structure FieldChain where
  steps : List ChainStep
  terminal : Option ChainStep
  error : Option ChainError
deriving DecidableEq

/-- `RELATIONAL_TTYPES` -/
def relationalTtypes : List String := ["many2one", "one2many", "many2many"]

/-- `(info["ttype"] or "").lower() in RELATIONAL_TTYPES`; beyond ASCII there is no letter whose
    lower case is in one of them. -/
def FieldHit.isRelational (info : FieldHit) : Bool :=
  String.ofList ((info.ttype.getD "").toList.map Char.toLower) ∈ relationalTtypes

/-- `dotted_path.split(".")` -/
def dottedSegments (path : String) : List String := (path.toList.splitOn '.').map String.ofList

/-- `[p for p in dotted_path.split(".") if p]` -/
def pathParts (path : String) : List String := (dottedSegments path).filter (· ≠ "")

/-- The loop, from the part with this number on. -/
def traverseParts (lookup : FieldLookup) (i : Nat) (steps : List ChainStep) (model : String) :
    List String → FieldChain
  | [] => { steps, terminal := steps.getLast?, error := none }
  | part :: rest =>
      match lookup model part with
      | none =>
          { steps, terminal := none
            error := some { step := i, model, field := part, ttype := none, reason := .missing } }
      | some info =>
          let step := { model, field := part, ttype := info.ttype, comodel := info.comodel }
          let failed (reason : ChainReason) : FieldChain :=
            { steps := steps ++ [step], terminal := none
              error := some { step := i, model, field := part, ttype := info.ttype, reason } }
          if rest = [] then { steps := steps ++ [step], terminal := some step, error := none }
          else if !info.isRelational then failed .notRelational
          else
            match truthy info.comodel with
            | none => failed .danglingComodel
            | some comodel => traverseParts lookup (i + 1) (steps ++ [step]) comodel rest

/-- `_traverse_field_chain(model, dotted_path, …)` -/
def traverseFieldChain (lookup : FieldLookup) (model dottedPath : String) : FieldChain :=
  if pathParts dottedPath = [] then
    { steps := [], terminal := none
      error := some
        { step := 0, model, field := dottedPath, ttype := none, reason := .missing } }
  else traverseParts lookup 0 [] model (pathParts dottedPath)

/-- `_broken_reason_text(err)` -/
def brokenReasonText (err : ChainError) : String :=
  match err.reason with
  | .missing => s!"field '{err.field}' not found on {err.model}"
  | .notRelational =>
      s!"field '{err.field}' on {err.model} is type '" ++ err.ttype.getD "None" ++
        "', not relational — cannot traverse further"
  | .danglingComodel =>
      s!"field '{err.field}' on {err.model} has no recorded comodel — cannot traverse further"

end OdooSemantic
