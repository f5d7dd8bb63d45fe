import Jig.Lib.Fallible
import Jig.Lib.Lists

/-!
# Ordered maps filled by a loop

A common loop of ordered-map code inserts records one after the other and stops at the first key
that is already present. `foldlM_insertNew_eq_ok` says when such a loop succeeds and what it
returns: every record passes its own check, the keys are pairwise distinct and new, and the result
is the plain insertion of all records, which `getElem?_insertAll_of_mem` reads back. `updateEntry`
is the entry of a map that is created on first use.
-/

namespace Jig.Lib

open Std

universe u v

variable {α κ β : Type u} {ε : Type v} {cmp : κ → κ → Ordering} [TransCmp cmp]

def insertAll (key : α → κ) (value : α → β) (m : ExtTreeMap κ β cmp) (l : List α) :
    ExtTreeMap κ β cmp :=
  l.foldl (fun m a => m.insert (key a) (value a)) m

variable {key : α → κ} {value : α → β} (m : ExtTreeMap κ β cmp)

@[simp]
theorem insertAll_nil : insertAll key value m [] = m := rfl

@[simp]
theorem insertAll_cons (a : α) (l : List α) :
    insertAll key value m (a :: l) = insertAll key value (m.insert (key a) (value a)) l := rfl

@[simp]
theorem insertAll_append (l₁ l₂ : List α) :
    insertAll key value m (l₁ ++ l₂) = insertAll key value (insertAll key value m l₁) l₂ :=
  List.foldl_append

variable {m} {k k' : κ} {v : β} {l : List α} {s : ExtTreeSet κ cmp}

theorem contains_eq_false_iff : m.contains k = false ↔ k ∉ m := by
  rw [← Bool.not_eq_true, ExtTreeMap.contains_iff_mem]

theorem mem_of_getElem?_eq_some (h : m[k]? = some v) : k ∈ m := by
  rw [ExtTreeMap.mem_iff_isSome_getElem?, h]
  rfl

theorem exists_getElem?_of_mem (h : k ∈ m) : ∃ v, m[k]? = some v :=
  Option.isSome_iff_exists.mp (ExtTreeMap.mem_iff_isSome_getElem?.mp h)

theorem nodup_map_fst_toList : (m.toList.map Prod.fst).Nodup := by
  rw [ExtTreeMap.map_fst_toList_eq_keys]
  exact ExtTreeMap.nodup_keys

variable [LawfulEqCmp cmp]

theorem getElem?_insert_self_or (m : ExtTreeMap κ β cmp) (k k' : κ) (v : β) :
    (k = k' ∧ (m.insert k v)[k']? = some v) ∨ (k ≠ k' ∧ (m.insert k v)[k']? = m[k']?) := by
  by_cases h : k = k'
  · refine Or.inl ⟨h, ?_⟩
    rw [h, ExtTreeMap.getElem?_insert_self]
  · refine Or.inr ⟨h, ?_⟩
    rw [ExtTreeMap.getElem?_insert, if_neg (fun hc => h (LawfulEqCmp.eq_of_compare hc))]

theorem mem_insert_iff : k' ∈ m.insert k v ↔ k = k' ∨ k' ∈ m := by
  rw [ExtTreeMap.mem_insert, LawfulEqCmp.compare_eq_iff_eq]

/-- Keys that no record carries keep their binding. -/
theorem getElem?_insertAll_of_notMem (hk : k ∉ l.map key) (m : ExtTreeMap κ β cmp) :
    (insertAll key value m l)[k]? = m[k]? := by
  induction l generalizing m with
  | nil => rfl
  | cons a l ih =>
      simp only [List.map_cons, List.mem_cons, not_or] at hk
      rw [insertAll_cons, ih hk.2]
      rcases getElem?_insert_self_or m (key a) k (value a) with ⟨h, _⟩ | ⟨_, h⟩
      · exact absurd h.symm hk.1
      · exact h

/-- Where the records of one key have one value, it is found under that key. -/
theorem getElem?_insertAll_of_agree (hk : k ∈ l.map key) (hagree : ∀ a ∈ l, key a = k → value a = v)
    (m : ExtTreeMap κ β cmp) : (insertAll key value m l)[k]? = some v := by
  induction l generalizing m with
  | nil => cases hk
  | cons a l ih =>
      rw [insertAll_cons]
      by_cases hmem : k ∈ l.map key
      · exact ih hmem (fun b hb => hagree b (List.mem_cons_of_mem _ hb)) _
      · have hka : key a = k := by
          rw [List.map_cons, List.mem_cons] at hk
          exact (hk.resolve_right hmem).symm
        rw [getElem?_insertAll_of_notMem hmem, ← hka, ExtTreeMap.getElem?_insert_self,
          hagree a List.mem_cons_self hka]

/-- With distinct keys every record is found under its own key. -/
theorem getElem?_insertAll_of_mem (hnodup : (l.map key).Nodup) {a : α} (ha : a ∈ l)
    (m : ExtTreeMap κ β cmp) : (insertAll key value m l)[key a]? = some (value a) := by
  apply getElem?_insertAll_of_agree (List.mem_map_of_mem ha)
  intro b hb hkey
  rw [List.inj_on_of_nodup_map hnodup hb ha hkey]

theorem getElem?_insertAll_empty_eq_some (hnodup : (l.map key).Nodup) :
    (insertAll key value (∅ : ExtTreeMap κ β cmp) l)[k]? = some v ↔
      ∃ a ∈ l, key a = k ∧ value a = v := by
  constructor
  · intro h
    by_cases hk : k ∈ l.map key
    · obtain ⟨a, ha, rfl⟩ := List.mem_map.mp hk
      rw [getElem?_insertAll_of_mem hnodup ha] at h
      exact ⟨a, ha, rfl, Option.some.inj h⟩
    · rw [getElem?_insertAll_of_notMem hk] at h
      simp at h
  · rintro ⟨a, ha, rfl, rfl⟩
    exact getElem?_insertAll_of_mem hnodup ha _

theorem mem_insertAll (m : ExtTreeMap κ β cmp) :
    k ∈ insertAll key value m l ↔ k ∈ l.map key ∨ k ∈ m := by
  have hfold := foldl_iff_or (P := (k ∈ ·))
    (f := fun (m : ExtTreeMap κ β cmp) a => m.insert (key a) (value a))
    (fun _ _ => mem_insert_iff.trans or_comm) l m
  rw [insertAll, hfold, List.mem_map, or_comm]

/-- **Loops that insert new keys only.** `f` checks a record, refuses a key that is present and
inserts the record otherwise. -/
theorem foldlM_insertNew_eq_ok {f : ExtTreeMap κ β cmp → α → Except ε (ExtTreeMap κ β cmp)}
    {good : α → Prop}
    (hf : ∀ m a m', f m a = .ok m' ↔ good a ∧ key a ∉ m ∧ m' = m.insert (key a) (value a))
    {m' : ExtTreeMap κ β cmp} :
    l.foldlM f m = .ok m' ↔
      (∀ a ∈ l, good a) ∧ (l.map key).Nodup ∧ (∀ a ∈ l, key a ∉ m) ∧
        m' = insertAll key value m l :=
  foldlM_new_eq_ok (P := fun m k => k ∈ m) hf fun _ _ _ => mem_insert_iff

/-! ## Values and entries -/

def valuesOf (m : ExtTreeMap κ β cmp) : List β :=
  m.toList.map Prod.snd

theorem mem_valuesOf : v ∈ valuesOf m ↔ ∃ k : κ, m[k]? = some v := by
  simp [valuesOf, List.mem_map]

theorem forall_mem_valuesOf {p : β → Prop} :
    (∀ v ∈ valuesOf m, p v) ↔ ∀ (k : κ) (v : β), m[k]? = some v → p v := by
  simp only [mem_valuesOf, forall_exists_index]
  exact forall_comm

/-- Change the value under a key, starting from a default when there is none. -/
def updateEntry (m : ExtTreeMap κ β cmp) (k : κ) (default : β) (f : β → β) :
    ExtTreeMap κ β cmp :=
  m.insert k (f (m[k]?.getD default))

theorem mem_updateEntry {default : β} {f : β → β} :
    k' ∈ updateEntry m k default f ↔ k = k' ∨ k' ∈ m :=
  mem_insert_iff

/-- The values of each key, in the order in which a loop with `entry(k).or_default().push(b)` meets
them. -/
def groupPairs (pairs : List (κ × β)) : ExtTreeMap κ (List β) cmp :=
  pairs.foldl (fun m pair => updateEntry m pair.1 [] (· ++ [pair.2])) ∅

section Entries

variable (m) (k)

theorem map_insert {γ : Type u} (v : β) (φ : β → γ) :
    (m.insert k v).map (fun _ => φ) = (m.map fun _ => φ).insert k (φ v) := by
  apply ExtTreeMap.ext_getElem?
  intro k'
  rw [ExtTreeMap.getElem?_map, ExtTreeMap.getElem?_insert, ExtTreeMap.getElem?_insert,
    ExtTreeMap.getElem?_map]
  split <;> rfl

theorem map_updateEntry {γ : Type u} (default : β) {f : β → β} {g : γ → γ}
    {φ : β → γ} (hφ : ∀ v, φ (f v) = g (φ v)) :
    (updateEntry m k default f).map (fun _ => φ) =
      updateEntry (m.map fun _ => φ) k (φ default) g := by
  unfold updateEntry
  rw [map_insert, hφ, ExtTreeMap.getElem?_map, Option.getD_map]

variable (k') [DecidableEq κ]

theorem getElem?_erase_eq :
    (m.erase k)[k']? = if k = k' then none else m[k']? := by
  rw [ExtTreeMap.getElem?_erase]
  exact if_congr LawfulEqCmp.compare_eq_iff_eq rfl rfl

theorem getElem?_insert_eq (v : β) :
    (m.insert k v)[k']? = if k = k' then some v else m[k']? := by
  rw [ExtTreeMap.getElem?_insert]
  exact if_congr LawfulEqCmp.compare_eq_iff_eq rfl rfl

theorem toList_erase :
    (m.erase k).toList = m.toList.filter fun p => p.1 ≠ k := by
  have hfilter : m.erase k = m.filter fun k' _ => k' ≠ k := by
    apply ExtTreeMap.ext_getElem?
    intro k'
    rw [getElem?_erase_eq, ExtTreeMap.getElem?_filter]
    by_cases hk : k = k'
    · subst hk
      simp
    · have htrue : decide (k' ≠ k) = true := decide_eq_true (Ne.symm hk)
      simp only [if_neg hk, ExtTreeMap.getKey_eq, htrue, Option.pfilter_eq_filter]
      cases m[k']? <;> rfl
  rw [hfilter, ExtTreeMap.toList_filter]

theorem getElem?_updateEntry (default : β) (f : β → β) :
    (updateEntry m k default f)[k']? =
      if k = k' then some (f (m[k]?.getD default)) else m[k']? :=
  getElem?_insert_eq m k k' _

variable {m k k'}

/-- Values that a predicate does not hold of can be erased under it. -/
theorem filter_valuesOf_erase {p : β → Bool} (h : ∀ v, m[k]? = some v → p v = false) :
    (valuesOf (m.erase k)).filter p = (valuesOf m).filter p := by
  unfold valuesOf
  rw [toList_erase, List.filter_map, List.filter_map, List.filter_filter]
  congr 1
  refine List.filter_congr fun pair hpair => ?_
  by_cases hk : pair.1 = k
  · have hget : m[k]? = some pair.2 := by
      rw [← hk]
      exact ExtTreeMap.mem_toList_iff_getElem?_eq_some.mp hpair
    simp [h _ hget]
  · simp [hk]

theorem mem_getD_push {m : ExtTreeMap κ (List β) cmp} {b b' : β} :
    b ∈ (updateEntry m k' [] (· ++ [b']))[k]?.getD [] ↔ b ∈ m[k]?.getD [] ∨ (k', b') = (k, b) := by
  rw [getElem?_updateEntry]
  by_cases h : k' = k
  · subst h
    simp [eq_comm]
  · simp [h]

theorem mem_getD_groupPairs {pairs : List (κ × β)} {b : β} :
    b ∈ (groupPairs pairs : ExtTreeMap κ (List β) cmp)[k]?.getD [] ↔ (k, b) ∈ pairs := by
  rw [groupPairs, foldl_iff_or (P := fun m => b ∈ m[k]?.getD []) (q := (· = (k, b)))
    fun _ pair => by exact mem_getD_push]
  simp

end Entries

/-! ## Ordered sets -/

section Sets

variable {l : List κ}

theorem mem_treeSet_ofList [DecidableEq κ] : k ∈ ExtTreeSet.ofList l cmp ↔ k ∈ l := by
  rw [ExtTreeSet.mem_ofList, List.contains_iff_mem]

theorem mem_treeSet_insert : k' ∈ s.insert k ↔ k = k' ∨ k' ∈ s := by
  rw [ExtTreeSet.mem_insert, LawfulEqCmp.compare_eq_iff_eq]

theorem mem_treeSet_erase : k' ∈ s.erase k ↔ k ≠ k' ∧ k' ∈ s := by
  rw [ExtTreeSet.mem_erase, Ne, LawfulEqCmp.compare_eq_iff_eq]

theorem mem_treeSet_foldl_insert : k ∈ l.foldl (·.insert ·) s ↔ k ∈ l ∨ k ∈ s := by
  have hfold := foldl_iff_or (P := (k ∈ ·)) (f := ExtTreeSet.insert)
    (fun _ _ => mem_treeSet_insert.trans or_comm) l s
  simpa [or_comm] using hfold

theorem mem_treeSet_singleton : k' ∈ ({k} : ExtTreeSet κ cmp) ↔ k = k' := by
  show k' ∈ (∅ : ExtTreeSet κ cmp).insert k ↔ _
  rw [mem_treeSet_insert]
  simp

theorem mem_treeSet_filter {p : κ → Bool} : k ∈ s.filter p ↔ k ∈ s ∧ p k = true := by
  rw [← ExtTreeSet.mem_toList, ExtTreeSet.toList_filter, List.mem_filter,
    ExtTreeSet.mem_toList]

theorem treeSet_toList_nodup (s : ExtTreeSet κ cmp) : s.toList.Nodup := by
  refine s.distinct_toList.imp ?_
  intro a b hab h
  exact hab (LawfulEqCmp.compare_eq_iff_eq.mpr h)

/-- A list fills a set with as many elements as it has entries only when it repeats none. -/
theorem size_ofList_eq_length_iff [DecidableEq κ] :
    (ExtTreeSet.ofList l cmp).size = l.length ↔ l.Nodup := by
  constructor
  · intro hsize
    have hsub : (ExtTreeSet.ofList l cmp).toList ⊆ l := by
      intro k hk
      exact mem_treeSet_ofList.mp (ExtTreeSet.mem_toList.mp hk)
    have hperm : (ExtTreeSet.ofList l cmp).toList.Perm l := by
      apply (List.subperm_of_subset (treeSet_toList_nodup _) hsub).perm_of_length_le
      rw [ExtTreeSet.length_toList, hsize]
    exact hperm.nodup_iff.mp (treeSet_toList_nodup _)
  · intro hnodup
    apply ExtTreeSet.size_ofList
    refine hnodup.imp ?_
    intro a b hab h
    exact hab (LawfulEqCmp.compare_eq_iff_eq.mp h)

end Sets

end Jig.Lib
