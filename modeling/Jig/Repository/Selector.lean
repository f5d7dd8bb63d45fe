import Jig.Repository.Libraries

/-!
# Selectors

The canonical selector grammar of `jig-repository`, `lib.rs`: an action name, or a
`component:action` pair, where `*` stands for any name. A text outside the grammar can only be a
legacy alias.
-/

namespace Jig.Repository

open Jig.Contract

inductive SelectorPart (kind : IdentifierKind) where
  | any
  | exact (expected : Identifier kind)
deriving DecidableEq

def SelectorPart.matches {kind : IdentifierKind} : SelectorPart kind → Identifier kind → Bool
  | any, _ => true
  | exact expected, value => expected == value

inductive RepositorySelector where
  | action (action : SelectorPart .action)
  | target (component : SelectorPart .component) (action : SelectorPart .action)
deriving DecidableEq

def RepositorySelector.matches : RepositorySelector → TargetId → Bool
  | .action part, name => part.matches name.action
  | .target component part, name => component.matches name.component && part.matches name.action

section Parsing

variable (libs : Libraries)

/-- `Display` of an identifier error. -/
def identifierErrorMessage (e : IdentifierError) : String :=
  let kind := match e.kind with
    | .component => "component"
    | .action => "action"
    | .profile => "profile"
  s!"invalid {kind} id {libs.debug e.value}: {e.reason}"

/-- An identifier, or the failure its error turns into. -/
def parseIdentifier (kind : IdentifierKind) (value : String) : Result (Identifier kind) :=
  (Identifier.parse kind value).mapError fun e => .bail (identifierErrorMessage libs e)

def parseSelectorPart (kind : IdentifierKind) (value : String) : Result (SelectorPart kind) :=
  if value = "*" then .ok .any else .exact <$> parseIdentifier libs kind value

def RepositorySelector.parse (value : String) : Result RepositorySelector :=
  match Lib.Text.splitOnce ':' value with
  | some (first, second) => do
      bailIf (Lib.Text.containsChar ':' second)
        s!"invalid target selector '{value}': expected component:action"
      let component ← parseSelectorPart libs .component first
      let action ← parseSelectorPart libs .action second
      return .target component action
  | none => .action <$> parseSelectorPart libs .action value

end Parsing

end Jig.Repository
