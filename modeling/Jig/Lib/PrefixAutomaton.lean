import Mathlib.Logic.Equiv.List

/-!
# Automata that remember how a text ends

The states of an Aho-Corasick automaton are the paths of a trie, and the state after a text is the
longest path that the text ends with (`Held`). Such an automaton exists for every finite set of
words (`exists_tracks`): the path after one more letter depends only on the path before it.
-/

namespace Jig.Lib

variable {α : Type*} {words : List (List α)} {path : List α} {path' : List α}

def TriePath (words : List (List α)) (path : List α) : Prop :=
  path = [] ∨ ∃ w ∈ words, path <+: w

theorem TriePath.of_isPrefix (h : TriePath words path) (hle : path' <+: path) :
    TriePath words path' := by
  rcases h with rfl | ⟨w, hw, hpath⟩
  · exact .inl (List.prefix_nil.mp hle)
  · exact .inr ⟨w, hw, hle.trans hpath⟩

/-- The longest path that a text ends with. -/
structure Held (words : List (List α)) (text path : List α) : Prop where
  isSuffix : path <:+ text
  triePath : TriePath words path
  longest : ∀ path', path' <:+ text → TriePath words path' → path'.length ≤ path.length

theorem exists_held (words : List (List α)) (text : List α) : ∃ path, Held words text path := by
  induction text with
  | nil =>
      refine ⟨[], List.suffix_refl _, .inl rfl, fun path' hpath' _ => ?_⟩
      rw [List.suffix_nil.mp hpath']
  | cons a text ih =>
      by_cases hpath : TriePath words (a :: text)
      · exact ⟨a :: text, List.suffix_refl _, hpath, fun path' hpath' _ => hpath'.length_le⟩
      · obtain ⟨path, hheld⟩ := ih
        refine ⟨path, hheld.isSuffix.trans (List.suffix_cons a text), hheld.triePath, ?_⟩
        intro path' hsuffix hpath'
        rcases List.suffix_cons_iff.mp hsuffix with rfl | hsuffix
        · exact absurd hpath' hpath
        · exact hheld.longest path' hsuffix hpath'

theorem Held.unique {text : List α} (h : Held words text path) (h' : Held words text path') :
    path = path' := by
  have hlen : path.length = path'.length :=
    Nat.le_antisymm (h'.longest path h.isSuffix h.triePath) (h.longest path' h'.isSuffix h'.triePath)
  exact (List.suffix_of_suffix_length_le h.isSuffix h'.isSuffix hlen.le).eq_of_length hlen

/-- A path is the longest path that it ends with. -/
theorem TriePath.held (h : TriePath words path) : Held words path path :=
  ⟨List.suffix_refl _, h, fun _ hsuffix _ => hsuffix.length_le⟩

/-- One letter more: what was before the held path does not matter. -/
theorem Held.concat {text : List α} {a : α} (h : Held words text path)
    (h' : Held words (path ++ [a]) path') : Held words (text ++ [a]) path' := by
  obtain ⟨before, hbefore⟩ := h.isSuffix
  have hsuffix : path ++ [a] <:+ text ++ [a] := ⟨before, by rw [← hbefore, List.append_assoc]⟩
  refine ⟨h'.isSuffix.trans hsuffix, h'.triePath, fun path'' hsuffix'' hpath'' => ?_⟩
  -- a path that ends with the letter is a path before it and the letter
  rcases List.eq_nil_or_concat path'' with rfl | ⟨init, b, rfl⟩
  · exact Nat.zero_le _
  · rw [List.concat_eq_append] at hsuffix'' hpath'' ⊢
    obtain ⟨hinit, rfl⟩ : init <:+ text ∧ b = a := by
      obtain ⟨t, ht⟩ := hsuffix''
      rw [← List.append_assoc] at ht
      obtain ⟨ht, hb⟩ := List.append_inj' ht rfl
      exact ⟨⟨t, ht⟩, List.singleton_inj.mp hb⟩
    have hle := h.longest init hinit (hpath''.of_isPrefix (List.prefix_append _ _))
    refine h'.longest _ ?_ hpath''
    obtain ⟨t, rfl⟩ := List.suffix_of_suffix_length_le hinit h.isSuffix hle
    exact ⟨t, by rw [List.append_assoc]⟩

/-- The states are the paths of the trie: the state after a text is that of its held path. -/
def Tracks (words : List (List α)) (start : Nat) (next : Nat → α → Nat) : Prop :=
  ∃ node : List α → Nat,
    (∀ path path', TriePath words path → TriePath words path' → node path = node path' →
      path = path') ∧
    ∀ text path, Held words text path → text.foldl next start = node path

section Tracks

variable {start : Nat} {next : Nat → α → Nat} (h : Tracks words start next)

include h

/-- A text leads where its held path leads. -/
theorem Tracks.read_eq {text : List α} (hheld : Held words text path) :
    text.foldl next start = path.foldl next start := by
  obtain ⟨node, -, hnode⟩ := h
  rw [hnode text path hheld, hnode path path hheld.triePath.held]

/-- Different paths lead to different states. -/
theorem Tracks.read_inj (hpath : TriePath words path) (hpath' : TriePath words path')
    (heq : path.foldl next start = path'.foldl next start) : path = path' := by
  obtain ⟨node, hinj, hnode⟩ := h
  rw [hnode path path hpath.held, hnode path' path' hpath'.held] at heq
  exact hinj path path' hpath hpath' heq

end Tracks

theorem exists_tracks [Countable α] (words : List (List α)) :
    ∃ start next, Tracks words start next := by
  have := Encodable.ofCountable α
  let node : List α → Nat := Encodable.encode
  let step (path : List α) (a : α) : List α := (exists_held words (path ++ [a])).choose
  have hstep (path : List α) (a : α) : Held words (path ++ [a]) (step path a) :=
    (exists_held words (path ++ [a])).choose_spec
  let next (state : Nat) (a : α) : Nat :=
    match (Encodable.decode state : Option (List α)) with
    | some path => node (step path a)
    | none => 0
  refine ⟨node [], next, node, fun _ _ _ _ h => Encodable.encode_injective h, fun text => ?_⟩
  induction text using List.reverseRecOn with
  | nil =>
      intro path hheld
      rw [List.suffix_nil.mp hheld.isSuffix, List.foldl_nil]
  | append_singleton text a ih =>
      intro path' hheld'
      obtain ⟨path, hheld⟩ := exists_held words text
      rw [List.foldl_append, ih path hheld, List.foldl_cons, List.foldl_nil,
        hheld'.unique (hheld.concat (hstep path a))]
      show next (Encodable.encode path) a = _
      simp only [next, Encodable.encodek]

instance instCountableUInt8 : Countable UInt8 :=
  Function.Injective.countable fun _ _ => UInt8.toNat_inj.mp

end Jig.Lib
