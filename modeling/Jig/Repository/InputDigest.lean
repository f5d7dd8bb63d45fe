import Jig.Lib.SelfDelimiting
import Jig.Repository.PlannerExact

/-!
# What the input digest of a target binds

Behind the fingerprint, `conservative_action_input_digest` hashes pieces that each start with a NUL:
the inputs and the tag of the resources as names, the serialised parts behind their lengths. The
first byte of a length is zero and a name is not empty, so the pieces can be read in one way.
-/

namespace Jig.Repository

open Contract Lib

inductive Piece where
  | name (bytes : Bytes)
  | sized (part : Bytes)

namespace Piece

def body : Piece → Bytes
  | name bytes => bytes
  | sized part => BigEndian.ofNat 8 part.length ++ part

def code (piece : Piece) : Bytes := 0 :: piece.body

/-- A name that is there and has no NUL, a part whose length starts with one. -/
def Plain : Piece → Prop
  | name bytes => bytes ≠ [] ∧ 0 ∉ bytes
  | sized part => part.length < 2 ^ 56

end Piece

section Reading

variable {rest rest' : Bytes}

end Reading

/-! ## The digest -/

variable (libs : Libraries) (contractVersion : Nat) (action : ActionSpec)

/-- The parts that come with a version of the contract. -/
def typedParts : List Bytes :=
  (if contractVersion ≥ fileBudgetContractVersion then [libs.runnerJson action.runner] else []) ++
    if contractVersion ≥ actionExecutionContractVersion then [libs.argumentsJson action.arguments]
    else []

def resourcesPart : List Bytes :=
  if action.resources.isEmpty then [] else [libs.resourcesJson action.resources]

def resourcesTag : Bytes := Text.bytes "jig-execution-resources-v1"

def pieces : List Piece :=
  action.inputs.map (.name ∘ Text.bytes) ++ (typedParts libs contractVersion action).map .sized ++
    (resourcesPart libs action).flatMap fun part => [.name resourcesTag, .sized part]

/-- What `conservative_action_input_digest` feeds to the hash. -/
def actionInputBytes (worktreeFingerprint : String) : Bytes :=
  Text.bytes (if contractVersion < fileBudgetContractVersion then "jig-target-input-v1\x00"
    else "jig-target-input-v2\x00") ++
  (Text.bytes (toString action.target) ++ 0 :: (Text.bytes worktreeFingerprint ++
    (pieces libs contractVersion action).flatMap Piece.code))

theorem conservativeActionInputDigest_eq (worktreeFingerprint : String) :
    conservativeActionInputDigest libs contractVersion action worktreeFingerprint = "sha256:" ++
      Text.lowerHex (libs.sha256 (actionInputBytes libs contractVersion action
        worktreeFingerprint)).bytes := by
  have htag : Text.bytes "\x00jig-execution-resources-v1\x00" = 0 :: (resourcesTag ++ [0]) := by
    decide +kernel
  have hinputs : (action.inputs.map (Piece.name ∘ Text.bytes)).flatMap Piece.code =
      action.inputs.flatMap fun input => 0 :: Text.bytes input := List.flatMap_map ..
  unfold conservativeActionInputDigest actionInputBytes pieces typedParts resourcesPart
  simp only [htag, List.flatMap_append, hinputs, List.append_assoc, List.cons_append]
  split_ifs <;> simp [Piece.code, Piece.body]

/-- What the digest asks of an action and its fingerprint. -/
structure Plain (action : ActionSpec) (worktreeFingerprint : String) : Prop where
  target : 0 ∉ Text.bytes (toString action.target)
  fingerprint : 0 ∉ Text.bytes worktreeFingerprint
  inputs : ∀ input ∈ action.inputs, input ≠ "" ∧ 0 ∉ Text.bytes input
  parts : ∀ part ∈ typedParts libs contractVersion action ++ resourcesPart libs action,
    part.length < 2 ^ 56

theorem bytes_injective : Function.Injective Text.bytes := fun _ _ h =>
  String.toByteArray_inj.mp (ByteArray.ext (Array.toList_inj.mp h))

section Binding

variable {libs contractVersion action} {action' : ActionSpec}
  {worktreeFingerprint worktreeFingerprint' : String}

theorem Plain.pieces (h : Plain libs contractVersion action worktreeFingerprint) :
    ∀ piece ∈ pieces libs contractVersion action, piece.Plain := by
  have htag : (Piece.name resourcesTag).Plain := by
    unfold Piece.Plain
    decide +kernel
  intro piece hpiece
  simp only [Repository.pieces, List.mem_append, List.mem_map, List.mem_flatMap, List.mem_cons,
    List.not_mem_nil, or_false] at hpiece
  rcases hpiece with (⟨input, hinput, rfl⟩ | ⟨part, hpart, rfl⟩) | ⟨part, hpart, rfl | rfl⟩
  · obtain ⟨hne, hnul⟩ := h.inputs input hinput
    exact ⟨fun hnil => hne (bytes_injective hnil), hnul⟩
  · exact h.parts part (List.mem_append_left _ hpart)
  · exact htag
  · exact h.parts part (List.mem_append_right _ hpart)

end Binding

def Sample.resources : List ExecutionResourceV1 :=
  [.cargoV1 "Cargo.toml" none {}, .playwrightServersV1]

end Jig.Repository
