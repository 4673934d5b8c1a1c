import Typestate.Code.Factory
import Typestate.Code.StageModule
import Typestate.Token.Lexer

/-!
# Generation

From a target to its generated items. Targets have nothing to do with each other, so generating
several of them is generating each, and a fault of one leaves the others alone.
-/

namespace Typestate

/-- What an artifact holds. -/
inductive ArtifactKind where
  /-- The module of stages. -/
  | interfaces
  /-- The type of the builder with its methods. -/
  | builder
  /-- The function of the target that begins a builder. -/
  | factory
  deriving DecidableEq, Repr

/-- What an artifact holds, in one word. -/
def ArtifactKind.text : ArtifactKind → String
  | .interfaces => "interfaces"
  | .builder => "builder"
  | .factory => "factory"

/-- A generated item of a target. -/
structure Artifact where
  target : String
  kind : ArtifactKind
  tokens : List Token

/-- An artifact as text, with a name. -/
structure RenderedArtifact where
  ident : String
  content : String
  deriving DecidableEq, Repr

/-- The name of an artifact. -/
def Artifact.ident (artifact : Artifact) : String := artifact.target ++ "." ++ artifact.kind.text

/-- The artifact as text. -/
def Artifact.render (artifact : Artifact) : RenderedArtifact :=
  ⟨artifact.ident, Token.render artifact.tokens⟩

/-- An artifact of the given text, if the text consists of tokens. -/
def Artifact.ofText? (target : String) (kind : ArtifactKind) (text : String) : Option Artifact :=
  (Token.lex? text).map fun tokens => ⟨target, kind, tokens⟩

/-- What is generated for one target. -/
structure Generated where
  target : Target
  lattice : Lattice
  stageModule : StageModule
  builderType : BuilderType
  factory : Factory

namespace Generated

/-- The artifacts, in the order in which they are written. -/
def artifacts (generated : Generated) : List Artifact :=
  [⟨generated.target.name, .interfaces, generated.stageModule.tokens⟩,
    ⟨generated.target.name, .builder, generated.builderType.tokens⟩,
    ⟨generated.target.name, .factory, generated.factory.tokens⟩]

/-- The artifact of the given kind. -/
def artifact? (generated : Generated) (kind : ArtifactKind) : Option Artifact :=
  generated.artifacts.find? fun artifact => artifact.kind = kind

/-- The artifacts as texts. -/
def render (generated : Generated) : List RenderedArtifact :=
  generated.artifacts.map Artifact.render

/-- All tokens, one artifact after another. -/
def tokens (generated : Generated) : List Token := generated.artifacts.flatMap Artifact.tokens

end Generated

/-- Generate the items of one target. A flag may be attached to the search for its stages. -/
def generateUnder (target : Target) (flag : Option CancelFlag) : Except Error Generated := do
  let lattice ← Error.ofLattice <|
    Lattice.buildUnder target.members target.settings.stageLimit flag
  let naming := Naming.ofTarget target
  let builderType ← BuilderType.ofLattice target naming lattice
  return {
    target := target
    lattice := lattice
    stageModule := .ofLattice target naming lattice
    builderType := builderType
    factory := .ofLattice target naming lattice }

/-- Generate the items of one target, unless it has been called off. -/
def generate (target : Target) (cancelled : Bool := false) : Except Error Generated :=
  generateUnder target (CancelFlag.ofBool cancelled)

/-- Generate the items of several targets, each by itself, with one flag attached to all. -/
def generateAll (targets : List Target) (flag : CancelFlag := ⟨false⟩) :
    List (Except Error (List RenderedArtifact)) :=
  targets.map fun target => (generateUnder target (some flag)).map Generated.render

end Typestate
