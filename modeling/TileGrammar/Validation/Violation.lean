import TileGrammar.Json.Record

/-!
# Violations

What a rule finds wrong with a drawn tile: what kind of thing, how bad it is,
where it was found, and what can be done about it.
-/

set_option autoImplicit false

namespace TileGrammar

inductive ViolationKind where
  | size
  | color
  | edge
  | stray
  | center
  | transparency
  | antiAliasing
  | format
  deriving DecidableEq, Repr

namespace ViolationKind

def all : List ViolationKind :=
  [.size, .color, .edge, .stray, .center, .transparency, .antiAliasing, .format]

def name : ViolationKind → String
  | .size => "size_mismatch"
  | .color => "invalid_color"
  | .edge => "edge_mismatch"
  | .stray => "stray_pixels"
  | .center => "center_inconsistent"
  | .transparency => "transparency_error"
  | .antiAliasing => "anti_aliasing"
  | .format => "format_error"

def codec : Codec ViolationKind := Codec.named all name

end ViolationKind

inductive Severity where
  | error
  | warning
  deriving DecidableEq, Repr

namespace Severity

def all : List Severity := [.error, .warning]

def name : Severity → String
  | .error => "error"
  | .warning => "warning"

def label : Severity → String
  | .error => "ERROR"
  | .warning => "WARNING"

def codec : Codec Severity := Codec.named all name

end Severity

structure Violation where
  kind : ViolationKind
  severity : Severity
  message : String
  location : Option (Nat × Nat)
  remedies : List String
  deriving DecidableEq

namespace Violation

def placeText : Option (Nat × Nat) → String
  | none => ""
  | some (x, y) => " at (" ++ decimal x ++ ", " ++ decimal y ++ ")"

def text (v : Violation) : String :=
  "[" ++ v.severity.label ++ "] " ++ v.kind.name ++ ": " ++ v.message ++ placeText v.location

def placeCodec : Codec (Nat × Nat) := .pair (.natBelow UInt32.size) (.natBelow UInt32.size)

def schema : Schema Violation where
  blank := ⟨.size, .error, "", none, []⟩
  fields := [
    .of "error_type" .required ViolationKind.codec Violation.kind fun v k => { v with kind := k },
    .of "severity" .required Severity.codec Violation.severity fun v s => { v with severity := s },
    .of "message" .required .text Violation.message fun v s => { v with message := s },
    .of "location" .nullable (.nullable placeCodec) Violation.location
      fun v p => { v with location := p },
    .of "remediation" .required (.listOf .text) Violation.remedies
      fun v r => { v with remedies := r }]

def codec : Codec Violation := schema.codec

end Violation

end TileGrammar
