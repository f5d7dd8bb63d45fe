import Jig.Lib.TreeMap

/-!
# Multimaps

Ordered maps to ordered sets that loops fill one pair at a time, `entry(k).or_default().insert(b)`
in Rust. `ofPairs` is the map such a loop returns; `mem_lookup_ofPairs` says that it holds the pairs
that were inserted, and `mem_ofPairs` that it has no empty entries.
-/

namespace Jig.Lib

open Std

variable {κ β : Type} [Ord κ] [TransOrd κ] [Ord β] [TransOrd β]

/-- An ordered map to ordered sets. -/
abbrev Multimap (κ β : Type) [Ord κ] [Ord β] := ExtTreeMap κ (ExtTreeSet β)

namespace Multimap

def lookup (m : Multimap κ β) (k : κ) : ExtTreeSet β :=
  m[k]?.getD ∅

def add (m : Multimap κ β) (pair : κ × β) : Multimap κ β :=
  updateEntry m pair.1 ∅ (·.insert pair.2)

def ofPairs (pairs : List (κ × β)) : Multimap κ β :=
  pairs.foldl add ∅

variable [LawfulEqOrd κ] [LawfulEqOrd β] {k : κ} {b : β} {m : Multimap κ β}

theorem mem_lookup_add [DecidableEq κ] {pair : κ × β} :
    b ∈ (m.add pair).lookup k ↔ pair = (k, b) ∨ b ∈ m.lookup k := by
  unfold lookup add
  rw [getElem?_updateEntry]
  by_cases hk : pair.1 = k
  · subst hk
    rw [if_pos rfl, Option.getD_some, ExtTreeSet.mem_insert,
      LawfulEqCmp.compare_eq_iff_eq, Prod.ext_iff]
    simp
  · rw [if_neg hk, Prod.ext_iff]
    simp [hk]

omit [LawfulEqOrd β] in
theorem mem_add {pair : κ × β} : k ∈ m.add pair ↔ pair.1 = k ∨ k ∈ m :=
  mem_updateEntry

variable {pairs : List (κ × β)}

/-- **Contents.** -/
theorem mem_lookup_ofPairs [DecidableEq κ] : b ∈ (ofPairs pairs).lookup k ↔ (k, b) ∈ pairs := by
  unfold ofPairs
  rw [foldl_iff_or (P := fun m => b ∈ lookup m k) (f := add) fun _ _ => mem_lookup_add.trans or_comm]
  simp [lookup]

theorem mem_pairs_of_getElem? [DecidableEq κ] {bs : ExtTreeSet β}
    (h : (ofPairs pairs)[k]? = some bs) (hb : b ∈ bs) : (k, b) ∈ pairs := by
  rw [← mem_lookup_ofPairs, lookup, h]
  exact hb

omit [LawfulEqOrd β] in
/-- **Keys.** A key is there when some pair has it. -/
theorem mem_ofPairs : k ∈ ofPairs pairs ↔ ∃ b, (k, b) ∈ pairs := by
  unfold ofPairs
  rw [foldl_iff_or (P := (k ∈ ·)) (f := add) fun _ _ => mem_add.trans or_comm]
  simp

end Multimap

end Jig.Lib
