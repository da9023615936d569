import TileGrammar.Json.Record

/-!
# Facets of a glyph

What a glyph is for movement, for the eye, for the ear, in stories and for a
reader of summaries. Every field of a facet has a default.
-/

set_option autoImplicit false

namespace TileGrammar

/-- Layers of a picture from the back to the front, written as their rank. -/
inductive Layer where
  | background
  | structural
  | entity
  | effect
  | lighting
  | ui
  deriving DecidableEq, Repr

namespace Layer

def all : List Layer := [.background, .structural, .entity, .effect, .lighting, .ui]

def rank : Layer → Nat
  | .background => 0
  | .structural => 1
  | .entity => 2
  | .effect => 3
  | .lighting => 4
  | .ui => 5

def codec : Codec Layer := (Codec.natBelow all.length).via rank fun n => all[n]?

end Layer

structure Physics where
  walkable : Bool
  blocksMovement : Bool
  blocksLight : Bool
  blocksProjectiles : Bool
  climbable : Bool
  swimmable : Bool
  movementPenalty : Float
  damageOnEnter : UInt32
  damageType : Option String

namespace Physics

def plain : Physics := ⟨true, false, false, false, false, false, 0.0, 0, none⟩

def schema : Schema Physics where
  blank := plain
  fields := [
    .of "walkable" .defaulted .flag Physics.walkable fun p v => { p with walkable := v },
    .of "blocks_movement" .defaulted .flag Physics.blocksMovement
      fun p v => { p with blocksMovement := v },
    .of "blocks_light" .defaulted .flag Physics.blocksLight fun p v => { p with blocksLight := v },
    .of "blocks_projectiles" .defaulted .flag Physics.blocksProjectiles
      fun p v => { p with blocksProjectiles := v },
    .of "climbable" .defaulted .flag Physics.climbable fun p v => { p with climbable := v },
    .of "swimmable" .defaulted .flag Physics.swimmable fun p v => { p with swimmable := v },
    .of "movement_penalty" .defaulted .number Physics.movementPenalty
      fun p v => { p with movementPenalty := v },
    .of "damage_on_enter" .defaulted .word32 Physics.damageOnEnter
      fun p v => { p with damageOnEnter := v },
    .of "damage_type" .defaulted (.nullable .text) Physics.damageType
      fun p v => { p with damageType := v }]

def same (p q : Physics) : Bool :=
  p.walkable = q.walkable && p.blocksMovement = q.blocksMovement &&
  p.blocksLight = q.blocksLight && p.blocksProjectiles = q.blocksProjectiles &&
  p.climbable = q.climbable && p.swimmable = q.swimmable &&
  p.movementPenalty == q.movementPenalty && p.damageOnEnter = q.damageOnEnter &&
  p.damageType = q.damageType

end Physics

structure Visual where
  layer : Layer
  connectivity : String
  palette : Option String
  glow : Bool
  glowRadius : UInt32
  glowColor : Option String
  animated : Bool
  animationId : Option String
  zIndex : Int32
  deriving DecidableEq

namespace Visual

def plain : Visual := ⟨.background, "none", none, false, 0, none, false, none, 0⟩

def schema : Schema Visual where
  blank := plain
  fields := [
    .of "layer" .defaulted Layer.codec Visual.layer fun p v => { p with layer := v },
    .of "connectivity" .defaulted .text Visual.connectivity
      fun p v => { p with connectivity := v },
    .of "palette" .defaulted (.nullable .text) Visual.palette fun p v => { p with palette := v },
    .of "glow" .defaulted .flag Visual.glow fun p v => { p with glow := v },
    .of "glow_radius" .defaulted .word32 Visual.glowRadius fun p v => { p with glowRadius := v },
    .of "glow_color" .defaulted (.nullable .text) Visual.glowColor
      fun p v => { p with glowColor := v },
    .of "animated" .defaulted .flag Visual.animated fun p v => { p with animated := v },
    .of "animation_id" .defaulted (.nullable .text) Visual.animationId
      fun p v => { p with animationId := v },
    .of "z_index" .defaulted .int32 Visual.zIndex fun p v => { p with zIndex := v }]

end Visual

structure Audio where
  onStep : Option String
  onEnter : Option String
  onExit : Option String
  onInteract : Option String
  onImpact : Option String
  ambient : Option String
  ambientVolume : Float

namespace Audio

def plain : Audio := ⟨none, none, none, none, none, none, 1.0⟩

def schema : Schema Audio where
  blank := plain
  fields := [
    .of "on_step" .defaulted (.nullable .text) Audio.onStep fun p v => { p with onStep := v },
    .of "on_enter" .defaulted (.nullable .text) Audio.onEnter fun p v => { p with onEnter := v },
    .of "on_exit" .defaulted (.nullable .text) Audio.onExit fun p v => { p with onExit := v },
    .of "on_interact" .defaulted (.nullable .text) Audio.onInteract
      fun p v => { p with onInteract := v },
    .of "on_impact" .defaulted (.nullable .text) Audio.onImpact
      fun p v => { p with onImpact := v },
    .of "ambient" .defaulted (.nullable .text) Audio.ambient fun p v => { p with ambient := v },
    .of "ambient_volume" .defaulted .number Audio.ambientVolume
      fun p v => { p with ambientVolume := v }]

def same (p q : Audio) : Bool :=
  p.onStep = q.onStep && p.onEnter = q.onEnter && p.onExit = q.onExit &&
  p.onInteract = q.onInteract && p.onImpact = q.onImpact && p.ambient = q.ambient &&
  p.ambientVolume == q.ambientVolume

end Audio

structure Narrative where
  description : String
  examineText : Option String
  tone : String
  keywords : List String
  loreCategory : Option String
  deriving DecidableEq

namespace Narrative

def plain : Narrative := ⟨"", none, "neutral", [], none⟩

def schema : Schema Narrative where
  blank := plain
  fields := [
    .of "description" .defaulted .text Narrative.description
      fun p v => { p with description := v },
    .of "examine_text" .defaulted (.nullable .text) Narrative.examineText
      fun p v => { p with examineText := v },
    .of "tone" .defaulted .text Narrative.tone fun p v => { p with tone := v },
    .of "keywords" .defaulted (.listOf .text) Narrative.keywords
      fun p v => { p with keywords := v },
    .of "lore_category" .defaulted (.nullable .text) Narrative.loreCategory
      fun p v => { p with loreCategory := v }]

end Narrative

/-- What a reasoning agent reads about a tile. -/
structure Appraisal where
  summary : String
  threat : Float
  interest : Float
  utility : Float
  rarity : Float
  synonyms : List String
  contexts : List String

namespace Appraisal

def plain : Appraisal := ⟨"", 0.0, 0.0, 0.0, 0.5, [], []⟩

def schema : Schema Appraisal where
  blank := plain
  fields := [
    .of "summary" .defaulted .text Appraisal.summary fun p v => { p with summary := v },
    .of "threat" .defaulted .number Appraisal.threat fun p v => { p with threat := v },
    .of "interest" .defaulted .number Appraisal.interest fun p v => { p with interest := v },
    .of "utility" .defaulted .number Appraisal.utility fun p v => { p with utility := v },
    .of "rarity" .defaulted .number Appraisal.rarity fun p v => { p with rarity := v },
    .of "synonyms" .defaulted (.listOf .text) Appraisal.synonyms fun p v => { p with synonyms := v },
    .of "contexts" .defaulted (.listOf .text) Appraisal.contexts fun p v => { p with contexts := v }]

def same (p q : Appraisal) : Bool :=
  p.summary = q.summary && p.threat == q.threat && p.interest == q.interest &&
  p.utility == q.utility && p.rarity == q.rarity && p.synonyms = q.synonyms &&
  p.contexts = q.contexts

end Appraisal

end TileGrammar
