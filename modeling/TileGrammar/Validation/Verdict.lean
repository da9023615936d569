import TileGrammar.Validation.Violation

/-!
# Verdicts

All findings about one tile. Errors fail the tile; warnings are only kept.
Verdicts on many tiles are summed up by counts.
-/

set_option autoImplicit false

namespace TileGrammar

structure Verdict where
  tile : String
  passed : Bool
  errors : List Violation
  warnings : List Violation
  stats : Dict Json

namespace Verdict

/-- The verdict on a tile about which nothing has been found. -/
def clean (tile : String) : Verdict := ⟨tile, true, [], [], ∅⟩

def note (v : Verdict) (found : Violation) : Verdict :=
  match found.severity with
  | .error => { v with errors := v.errors ++ [found], passed := false }
  | .warning => { v with warnings := v.warnings ++ [found] }

def noteAll (v : Verdict) (found : List Violation) : Verdict := found.foldl note v

def fails (v : Verdict) (kind : ViolationKind) : Bool := v.errors.any fun e => e.kind = kind

def summary (v : Verdict) : String :=
  v.tile ++ ": " ++ (if v.passed then "PASSED" else "FAILED") ++ " (" ++
    decimal v.errors.length ++ " errors, " ++ decimal v.warnings.length ++ " warnings)"

def schema : Schema Verdict where
  blank := clean ""
  fields := [
    .of "tile_id" .required .text Verdict.tile fun v s => { v with tile := s },
    .of "passed" .required .flag Verdict.passed fun v b => { v with passed := b },
    .of "errors" .required (.listOf Violation.codec) Verdict.errors
      fun v es => { v with errors := es },
    .of "warnings" .required (.listOf Violation.codec) Verdict.warnings
      fun v ws => { v with warnings := ws },
    .of "stats" .required (.dict .any) Verdict.stats fun v d => { v with stats := d }]

def codec : Codec Verdict := schema.codec

end Verdict

/-- Counts over the verdicts on many tiles. -/
structure Tally where
  total : Nat
  passed : Nat
  failed : Nat
  passRate : Float
  errors : Dict Nat

namespace Tally

def errorCount (vs : List Verdict) (kind : ViolationKind) : Nat :=
  (vs.flatMap Verdict.errors).countP fun e => e.kind = kind

def errorCounts (vs : List Verdict) : Dict Nat :=
  Dict.ofList ((ViolationKind.all.map fun k => (k.name, errorCount vs k)).filter
    fun c => 0 < c.2)

def ofVerdicts (vs : List Verdict) : Tally :=
  let passed := vs.countP Verdict.passed
  { total := vs.length
    passed := passed
    failed := vs.length - passed
    passRate := if vs.isEmpty then 0.0 else passed.toFloat / vs.length.toFloat
    errors := errorCounts vs }

end Tally

end TileGrammar
