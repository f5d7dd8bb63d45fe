import Jig.Contract.Json
import Jig.Lib.BigEndian

/-!
# What the repository crate relies on

Third-party code the catalog and the planner call: `globset` compiles and matches patterns, `sha2`
hashes, `serde_json` encodes, and `std::fmt` prints debug text. It enters the model as the fields of
`Libraries`; nothing is assumed about them unless a theorem says so.

`Failure` is how a function of the crate stops: an `anyhow` error with its text, or a failed
`expect`.
-/

namespace Jig.Repository

open Jig.Contract Jig.Lib

structure Digest where
  bytes : Bytes
  length_eq : bytes.length = 32

instance : DecidableEq Digest := fun a b =>
  decidable_of_iff (a.bytes = b.bytes) ⟨by cases a; cases b; rintro rfl; rfl, fun h => h ▸ rfl⟩

/-- The libraries under the crate. `serde_json` encodes strings, numbers, sequences and maps with
string keys, which does not fail. -/
structure Libraries where
  /-- `GlobBuilder::build` with literal separators and no backslash escapes. -/
  globBuild : String → Except String Unit
  /-- `GlobMatcher::is_match` of a pattern that builds. -/
  globIsMatch : String → String → Bool
  /-- `Sha256::digest`. -/
  sha256 : Bytes → Digest
  /-- `{:?}` of a text. -/
  debug : String → String
  reasonJson : SelectionReason → Bytes
  runnerJson : ActionRunner → Bytes
  argumentsJson : Std.ExtTreeMap String ActionArgumentSpec → Bytes
  resourcesJson : List ExecutionResourceV1 → Bytes
  cargoIdentityJson : String → String → CargoImpactContextV1 → Bytes
  planJson : RunPlan → Bytes
  parseFocus : String → Except String RustFocusV1
  focusJson : RustFocusV1 → String

/-- `[0u8; 32]`. -/
def zeroDigest : Digest := ⟨List.replicate 32 0, rfl⟩

inductive Failure where
  | bail (message : String)
  | panic (message : String)
deriving DecidableEq

def Failure.message : Failure → String
  | bail message => message
  | panic message => message

abbrev Result := Except Failure

/-- `ensure!`. -/
def ensure (condition : Bool) (message : String) : Result Unit :=
  if condition then .ok () else .error (.bail message)

/-- `bail!` under a condition. -/
def bailIf (condition : Bool) (message : String) : Result Unit :=
  if condition then .error (.bail message) else .ok ()

def expect {α : Type} (value : Option α) (message : String) : Result α :=
  match value with
  | some a => .ok a
  | none => .error (.panic message)

theorem bailIf_eq_ok {condition : Bool} {message : String} {u : Unit} :
    bailIf condition message = .ok u ↔ condition = false := by
  unfold bailIf
  split <;> simp_all

theorem expect_eq_ok {α : Type} {value : Option α} {message : String} {a : α} :
    expect value message = .ok a ↔ value = some a := by
  unfold expect
  split <;> simp

/-- Libraries to run the model with on small inputs: a pattern matches itself only, a check value
stands for the hash, and of the typed focuses only the automatic one is read. -/
def Libraries.literal : Libraries where
  globBuild _ := .ok ()
  globIsMatch pattern path := pattern == path
  sha256 bytes := ⟨BigEndian.checksum bytes, BigEndian.length_checksum bytes⟩
  debug text := "\"" ++ text ++ "\""
  reasonJson := SelectionReason.json
  runnerJson := ActionRunner.json
  argumentsJson arguments :=
    Json.object (arguments.toList.map fun (name, spec) => (name, spec.json))
  resourcesJson resources := Json.array (resources.map ExecutionResourceV1.json)
  cargoIdentityJson manifest cwd context :=
    Json.array [Json.string manifest, Json.string cwd, context.json]
  planJson := RunPlan.json
  parseFocus text :=
    if Text.bytes text = RustFocusV1.json .automatic then .ok .automatic
    else .error "expected a focus"
  focusJson focus := String.ofList (Text.asciiChars focus.json)

end Jig.Repository
