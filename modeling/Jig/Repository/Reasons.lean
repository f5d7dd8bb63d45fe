import Jig.Lib.BigEndian
import Jig.Lib.TreeMap
import Jig.Repository.Libraries

/-!
# Selection reasons

How the planner keeps the reasons for which a target is selected (`jig-repository`, `affected.rs`
and `planner.rs`). Reasons that come with a changed path are shared between targets in batches, and
a batch keeps its first hundred reasons, their number and the sum of their digests. A plan shows at
most a hundred reasons of a target; when there are more it shows their number and a digest of all.

The selection is generic in the type `B` of a batch. The source keeps `SelectionReasonBatch`, built
by `from_reasons`; keeping the reasons themselves gives the unbounded evidence it stands for.
-/

namespace Jig.Repository

open Jig.Contract Jig.Lib Std

def maxSelectionReasons : Nat := 100

def selectionReasonItemDigestDomain : Bytes := Text.bytes "jig-selection-reason-item-v2\x00"

def selectionReasonsDigestDomain : Bytes := Text.bytes "jig-selection-reasons-v2\x00"

/-! ## Reasons of a target -/

structure TargetSelectionReasons (B : Type) where
  explicit : ExtTreeSet SelectionReason := ∅
  batches : List B := []

namespace TargetSelectionReasons

variable {B : Type}

def insert (reasons : TargetSelectionReasons B) (reason : SelectionReason) :
    TargetSelectionReasons B :=
  { reasons with explicit := reasons.explicit.insert reason }

def attach (reasons : TargetSelectionReasons B) (batch : B) : TargetSelectionReasons B :=
  { reasons with batches := reasons.batches ++ [batch] }

end TargetSelectionReasons

abbrev TargetSelection (B : Type) := ExtTreeMap TargetId (TargetSelectionReasons B)

/-! ## Digests -/

/-- `add_selection_reason_digest`: addition modulo 2^256, byte by byte from the last. -/
def addSelectionReasonDigest (aggregate digest : Digest) : Digest where
  bytes := BigEndian.addBytes aggregate.bytes digest.bytes
  length_eq := by
    rw [BigEndian.length_addBytes (aggregate.length_eq.trans digest.length_eq.symm),
      aggregate.length_eq]

section Libraries

variable (libs : Libraries)

def selectionReasonItemDigest (reason : SelectionReason) : Digest :=
  let encoded := libs.reasonJson reason
  libs.sha256 (selectionReasonItemDigestDomain ++ BigEndian.ofNat 8 encoded.length ++ encoded)

/-! ## Batches -/

/-- `SelectionReasonBatch`. Its count is far from the bounds of `usize`. -/
structure SelectionReasonBatch where
  preview : List SelectionReason := []
  count : Nat := 0
  sumDigest : Digest := zeroDigest

/-- One round of `from_reasons`. -/
def SelectionReasonBatch.push (batch : SelectionReasonBatch) (reason : SelectionReason) :
    SelectionReasonBatch where
  preview := if batch.preview.length < maxSelectionReasons then batch.preview ++ [reason]
    else batch.preview
  count := batch.count + 1
  sumDigest := addSelectionReasonDigest batch.sumDigest (selectionReasonItemDigest libs reason)

def SelectionReasonBatch.fromReasons (reasons : List SelectionReason) : SelectionReasonBatch :=
  reasons.foldl (SelectionReasonBatch.push libs) {}

/-! ## Bounded evidence -/

def selectionReasonPriority : SelectionReason → Nat
  | .explicit _ | .profile _ | .actionDependency _ | .legacyAlias _ => 0
  | .directInput _ | .unclaimedInput _ | .componentDependency _ _ => 1

/-- The order of a truncated preview: priority first, then the natural order. -/
def previewCmp : SelectionReason → SelectionReason → Ordering :=
  compareLex (compareOn selectionReasonPriority) compare

structure BoundedSelectionReasons where
  preview : List SelectionReason
  total : Option Nat
  truncated : Bool
  digest : Option String

def boundedSelectionReasons (reasons : TargetSelectionReasons SelectionReasonBatch) :
    Result BoundedSelectionReasons :=
  let total := reasons.batches.foldl (fun total batch => total + batch.count) reasons.explicit.size
  let explicitDigest := reasons.explicit.toList.foldl
    (fun sum reason => addSelectionReasonDigest sum (selectionReasonItemDigest libs reason))
    zeroDigest
  let sumDigest := reasons.batches.foldl
    (fun sum batch => addSelectionReasonDigest sum batch.sumDigest) explicitDigest
  let preview := (reasons.batches.foldl (fun (preview : ExtTreeSet SelectionReason) batch =>
    batch.preview.foldl (·.insert ·) preview) reasons.explicit).toList
  if total ≤ maxSelectionReasons then do
    bailIf (preview.length != total)
      (s!"could not construct deterministic selection evidence because reason batches overlap " ++
        s!"(expected {total} unique reasons, observed {preview.length}); retry planning and " ++
        "report this as a Jig defect if it recurs")
    return { preview, total := none, truncated := false, digest := none }
  else
    let digest := libs.sha256
      (selectionReasonsDigestDomain ++ BigEndian.ofNat 8 total ++ sumDigest.bytes)
    .ok {
      preview := (preview.insertionSort (previewCmp · · != .gt)).take maxSelectionReasons
      total := some total
      truncated := true
      digest := some ("sha256:" ++ Text.lowerHex digest.bytes) }

end Libraries

end Jig.Repository
