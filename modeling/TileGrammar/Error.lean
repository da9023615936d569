import TileGrammar.Codepoint.Band
import TileGrammar.Grammar.Dial

/-!
# Errors

What can go wrong, by cause, and the wording of each cause in one function.
Faults of a drawn tile are no errors: they are found by validation. Texts that
cannot be read as a record and files that cannot be read have a kind but no
further cause.
-/

set_option autoImplicit false

namespace TileGrammar

inductive Error where
  | bandExhausted (band : Band)
  | edgeCodeLength (text : String)
  | edgeDigit (digit : Char) (text : String)
  | codepointMark (text : String)
  | codepointDigits (text : String)
  | hexColor (text : String)
  | byteCount (width height got : Nat)
  | biomeOverride (biome glyph : String)
  | blankCategory
  | blankPalette
  | dialRange (dial : Dial) (value : Nat)
  | variantRange (spec : String) (dial : Dial) (value : Nat)
  | unknownCategory (category : String)
  | engineTooOld (pack needed current : String)
  | emptyBatch
  | engineRelease
  | packVersion (pack needed : String)
  | registryVersion (version : String)
  | noColorBudget
  | malformed
  | unreadableFile
  | outOfRange
  deriving DecidableEq

/-- Coarse kinds of errors, as programs tell them apart. -/
inductive ErrorKind where
  | rangeExhausted
  | format
  | invalidGrammar
  | invalidSpec
  | unknownCategory
  | engineVersionMismatch
  | emptyBatch
  | config
  | serialization
  | io
  | outOfRange
  deriving DecidableEq

namespace Error

def ofCodepointFault (text : String) : Codepoint.Fault → Error
  | .mark => .codepointMark text
  | .digits => .codepointDigits text

def kind : Error → ErrorKind
  | .bandExhausted _ => .rangeExhausted
  | .edgeCodeLength _ | .edgeDigit _ _ | .codepointMark _ | .codepointDigits _ | .hexColor _
  | .byteCount _ _ _ | .biomeOverride _ _ => .format
  | .blankCategory | .blankPalette | .dialRange _ _ => .invalidGrammar
  | .variantRange _ _ _ => .invalidSpec
  | .unknownCategory _ => .unknownCategory
  | .engineTooOld _ _ _ => .engineVersionMismatch
  | .emptyBatch => .emptyBatch
  | .engineRelease | .packVersion _ _ | .registryVersion _ | .noColorBudget => .config
  | .malformed => .serialization
  | .unreadableFile => .io
  | .outOfRange => .outOfRange

/-- The mark in front of the cause. Kinds of one cause have none. -/
def lead : ErrorKind → String
  | .format => "Format error: "
  | .invalidGrammar => "Invalid grammar: "
  | .invalidSpec => "Invalid spec: "
  | .config => "Configuration error: "
  | _ => ""

def cause : Error → String
  | .bandExhausted b =>
    "Codepoint range exhausted for " ++ b.name ++ " (U+" ++ hexUpper 4 b.first ++ "..U+" ++
      hexUpper 4 b.last ++ ")"
  | .edgeCodeLength s => "Edge code must be 4 digits, got " ++ quoteText s
  | .edgeDigit c s => "Invalid edge digit " ++ quoteChar c ++ " in " ++ quoteText s
  | .codepointMark s => "Codepoint must start with U+: " ++ quoteText s
  | .codepointDigits s => "Invalid codepoint: " ++ quoteText s
  | .hexColor s => "Invalid hex color: " ++ s
  | .byteCount w h got =>
    "Expected " ++ decimal (w * h * 4) ++ " bytes for " ++ decimal w ++ "x" ++ decimal h ++
      " RGBA, got " ++ decimal got
  | .biomeOverride biome glyph =>
    "Biome override for " ++ biome ++ " on " ++ glyph ++ " must be an object"
  | .blankCategory => "category must not be empty"
  | .blankPalette => "palette must not be empty"
  | .dialRange d v =>
    d.name ++ "_state = " ++ decimal v ++ " out of range 0..=" ++ decimal d.limit
  | .variantRange spec d v =>
    spec ++ ": " ++ d.name ++ "_variants = " ++ decimal v ++ " out of range 1..=" ++
      decimal (d.limit + 1)
  | .unknownCategory s => "Unknown tile category: " ++ s
  | .engineTooOld pack needed current =>
    "Grammar pack " ++ pack ++ " requires engine >= " ++ needed ++ ", current is " ++ current
  | .emptyBatch => "Nothing to compile: batch contains no specs"
  | .engineRelease => "Invalid engine version"
  | .packVersion pack needed =>
    "Pack " ++ pack ++ " has invalid engine_min_version '" ++ needed ++ "'"
  | .registryVersion v => "registry_version '" ++ v ++ "' is not semver:"
  | .noColorBudget => "default_max_colors must be at least 1"
  | .malformed => "Serialization error:"
  | .unreadableFile => "IO error:"
  | .outOfRange => "index out of range"

def message (e : Error) : String := lead e.kind ++ e.cause

end Error

/-- The value, or the error for its absence. -/
def orFail {α : Type} (e : Error) : Option α → Except Error α
  | some a => .ok a
  | none => .error e

theorem orFail_eq_ok_iff {α : Type} {e : Error} {x : Option α} {a : α} :
    orFail e x = .ok a ↔ x = some a := by
  cases x <;> simp [orFail]

theorem orFail_eq_error_iff {α : Type} {e : Error} {x : Option α} :
    orFail e x = .error e ↔ x = none := by
  cases x <;> simp [orFail]

theorem bind_eq_ok {ε α β : Type} {x : Except ε α} {f : α → Except ε β} {b : β}
    (h : (x >>= f) = .ok b) : ∃ a, x = .ok a ∧ f a = .ok b := by
  cases x with
  | error e => cases h
  | ok a => exact ⟨a, rfl, h⟩

theorem bind_eq_error {ε α β : Type} {x : Except ε α} {f : α → Except ε β} {e : ε}
    (h : (x >>= f) = .error e) : x = .error e ∨ ∃ a, x = .ok a ∧ f a = .error e := by
  cases x with
  | error d =>
    cases h
    exact .inl rfl
  | ok a => exact .inr ⟨a, rfl, h⟩

end TileGrammar
