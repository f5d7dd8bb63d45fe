import Jig.Lib.Fallible
import Jig.Lib.LeftmostLongest
import Jig.Lib.PrefixAutomaton
import Jig.Vault.ExecOutput
import Mathlib.Algebra.Order.BigOperators.Group.List
import Mathlib.Algebra.Order.Group.Nat
import Mathlib.Order.Nat

/-!
# Streaming redaction does not depend on the chunks

What `suffix_len` measures is the longest end of the input that may grow into a secret, so no
position before the safe limit can get another match than it has (`not_grows_of_held`). The matches
that are emitted there are those of the whole input, and the redactor goes on behind them as the
whole search does (`emitMatches_replaced`).
-/

namespace Jig.Vault

open Lib

/-- What is assumed of `aho_corasick`, for patterns within the limit on their bytes. -/
structure RedactionLibraries.Lawful (libs : RedactionLibraries) : Prop where
  /-- `find_iter` yields the leftmost-longest matches. -/
  buildMatcher : ∀ patterns, (∀ p ∈ patterns, p ≠ []) →
    (patterns.map List.length).sum ≤ maxExecRedactionPatternBytes →
    ∃ findIter, libs.buildMatcher patterns = some findIter ∧
      ∀ text, Matches patterns text 0 (findIter text)
  /-- The state after a text is the longest path of the trie that the text ends with. -/
  buildNfa : ∀ words, (∀ word ∈ words, word ≠ []) →
    (words.map List.length).sum ≤ maxExecRedactionPatternBytes →
    ∃ automaton, libs.buildNfa words = some automaton ∧
      Tracks words automaton.startState automaton.nextState

/-! ### Depths -/

section Depths

variable {words : List Bytes} {automaton : Nfa} {depths : List Nat}

theorem getElem?_setDepth_self (depths : List Nat) (index depth : Nat) :
    (setDepth depths index depth)[index]? = some depth := by
  unfold setDepth
  split
  · rw [List.getElem?_set_self]
    simp only [List.length_append, List.length_replicate]
    omega
  · rw [List.getElem?_set_self]
    omega

theorem getElem?_setDepth_of_ne {index index' depth value : Nat} (hne : index' ≠ index)
    (h : depths[index']? = some value) : (setDepth depths index depth)[index']? = some value := by
  obtain ⟨hlt, -⟩ := List.getElem?_eq_some_iff.mp h
  unfold setDepth
  rw [List.getElem?_set_ne hne.symm]
  split
  · rw [List.getElem?_append_left hlt]
    exact h
  · exact h

def Recorded (automaton : Nfa) (depths : List Nat) (path : Bytes) : Prop :=
  depths[path.foldl automaton.nextState automaton.startState]? = some path.length

/-- Walking along a word records its paths, and forgets none. -/
theorem recorded_recordDepths (h : Tracks words automaton.startState automaton.nextState)
    {before rest : Bytes} (hword : TriePath words (before ++ rest))
    (hbefore : Recorded automaton depths before) {path : Bytes} (hpath : TriePath words path)
    (hrecorded : Recorded automaton depths path ∨ before <+: path ∧ path <+: before ++ rest) :
    Recorded automaton
      (recordDepths automaton (before.foldl automaton.nextState automaton.startState)
        before.length rest depths) path := by
  induction rest generalizing before depths with
  | nil =>
      rcases hrecorded with hrecorded | ⟨hle, hge⟩
      · exact hrecorded
      · rw [List.append_nil] at hge
        rw [hge.eq_of_length_le hle.length_le]
        exact hbefore
  | cons byte rest ih =>
      have hstate : automaton.nextState (before.foldl automaton.nextState automaton.startState) byte =
          (before ++ [byte]).foldl automaton.nextState automaton.startState := by
        rw [List.foldl_append, List.foldl_cons, List.foldl_nil]
      have hlen : before.length + 1 = (before ++ [byte]).length := by
        rw [List.length_append, List.length_singleton]
      have hword' : TriePath words ((before ++ [byte]) ++ rest) := by
        rwa [List.append_assoc]
      have hnew : TriePath words (before ++ [byte]) := hword'.of_isPrefix (List.prefix_append _ _)
      rw [recordDepths, hstate, hlen]
      have hself := getElem?_setDepth_self depths
        ((before ++ [byte]).foldl automaton.nextState automaton.startState) (before ++ [byte]).length
      refine ih hword' hself ?_
      by_cases heq : path = before ++ [byte]
      · rw [heq]
        exact .inl hself
      -- the states of other paths are other states
      have hkept (hrecorded : Recorded automaton depths path) : Recorded automaton (setDepth depths
          ((before ++ [byte]).foldl automaton.nextState automaton.startState)
          (before ++ [byte]).length) path :=
        getElem?_setDepth_of_ne (fun hsame => heq (h.read_inj hpath hnew hsame)) hrecorded
      rcases hrecorded with hrecorded | ⟨⟨tail, rfl⟩, hge⟩
      · exact .inl (hkept hrecorded)
      · cases tail with
        | nil =>
            rw [List.append_nil] at hkept ⊢
            exact .inl (hkept hbefore)
        | cons byte' tail =>
            rw [List.prefix_append_right_inj, List.cons_prefix_cons] at hge
            rw [hge.1, List.append_cons before byte tail]
            right
            simpa using hge.2

/-- All paths are recorded in the end. -/
theorem recorded_foldl (h : Tracks words automaton.startState automaton.nextState)
    {patterns : List Bytes} (hwords : ∀ p ∈ patterns, TriePath words p.dropLast)
    (hroot : Recorded automaton depths []) {path : Bytes} (hpath : TriePath words path)
    (hrecorded : Recorded automaton depths path ∨ ∃ p ∈ patterns, path <+: p.dropLast) :
    Recorded automaton (patterns.foldl
      (fun depths p => recordDepths automaton automaton.startState 0 p.dropLast depths) depths)
      path := by
  induction patterns generalizing depths with
  | nil => simpa using hrecorded
  | cons p patterns ih =>
      rw [List.forall_mem_cons] at hwords
      have hstep {path : Bytes} := @recorded_recordDepths _ _ _ h [] _ hwords.1 hroot path
      refine ih hwords.2 (hstep (.inl rfl) (.inl hroot)) ?_
      rcases hrecorded with hrecorded | ⟨q, hq, hle⟩
      · exact .inl (hstep hpath (.inl hrecorded))
      · rcases List.mem_cons.mp hq with rfl | hq
        · exact .inl (hstep hpath (.inr ⟨List.nil_prefix, hle⟩))
        · exact .inr ⟨q, hq, hle⟩

end Depths

/-! ### What is held back -/

section Streaming

variable {patterns : List Bytes} {matcher : PrefixMatcher} {chunks : List Bytes}
  {libs : RedactionLibraries}

/-- The length that is held back is that of the longest end that may grow. -/
def PrefixMatcher.Exact (patterns : List Bytes) (matcher : PrefixMatcher) : Prop :=
  ∀ input path, Held (patterns.map List.dropLast) input path →
    matcher.suffixLen input = some path.length

theorem exists_prefixMatcher (hlibs : libs.Lawful) (hlens : ∀ p ∈ patterns, 1 < p.length)
    (hsum : (patterns.map List.length).sum ≤ maxExecRedactionPatternBytes) :
    ∃ matcher, PrefixMatcher.new libs patterns = .ok matcher ∧ matcher.Exact patterns := by
  have hsum' : ((patterns.map List.dropLast).map List.length).sum ≤ maxExecRedactionPatternBytes := by
    refine le_trans ?_ hsum
    rw [List.map_map]
    exact List.sum_le_sum fun p _ => by simp
  have hnonempty : ∀ word ∈ patterns.map List.dropLast, word ≠ [] := by
    refine List.forall_mem_map.mpr fun p hp => List.ne_nil_of_length_pos ?_
    have := hlens p hp
    rw [List.length_dropLast]
    omega
  obtain ⟨automaton, hbuild, htracks⟩ := hlibs.buildNfa _ hnonempty hsum'
  unfold PrefixMatcher.new
  simp only [hbuild]
  refine ⟨_, rfl, fun input path hheld => ?_⟩
  have hroot : Recorded automaton (List.replicate (automaton.startState + 1) 0) [] := by
    show (List.replicate (automaton.startState + 1) 0)[automaton.startState]? = some 0
    simp
  have hwords (p : Bytes) (hp : p ∈ patterns) :
      TriePath (patterns.map List.dropLast) p.dropLast :=
    .inr ⟨p.dropLast, List.mem_map_of_mem hp, List.prefix_refl _⟩
  show (patterns.foldl _ _)[input.foldl _ _]? = _
  rw [htracks.read_eq hheld]
  refine recorded_foldl htracks hwords hroot hheld.triePath ?_
  rcases hheld.triePath with rfl | ⟨w, hw, hle⟩
  · exact .inl hroot
  · obtain ⟨p, hp, rfl⟩ := List.mem_map.mp hw
    exact .inr ⟨p, hp, hle⟩

/-- A proper prefix of a pattern is a path. -/
theorem triePath_of_grows {seen : Bytes} (h : Grows patterns seen) :
    TriePath (patterns.map List.dropLast) seen := by
  obtain ⟨p, hp, hle, hne⟩ := h
  refine .inr ⟨p.dropLast, List.mem_map_of_mem hp, ?_⟩
  cases p using List.reverseRecOn with
  | nil => exact absurd (List.prefix_nil.mp hle) hne
  | append_singleton init a =>
      rw [List.dropLast_concat]
      exact (List.prefix_concat_iff.mp hle).resolve_left hne

/-- Before the held end nothing may grow. -/
theorem not_grows_of_held {input path : Bytes} {i : Nat}
    (h : Held (patterns.map List.dropLast) input path) (hi : i < input.length - path.length) :
    ¬Grows patterns (input.drop i) := by
  intro hgrows
  have hle := h.longest _ (List.drop_suffix i input) (triePath_of_grows hgrows)
  rw [List.length_drop] at hle
  omega

/-- The held end is shorter than some pattern. -/
theorem exists_length_lt_of_triePath (hne : patterns ≠ []) (hpatterns : ∀ p ∈ patterns, p ≠ [])
    {path : Bytes} (h : TriePath (patterns.map List.dropLast) path) :
    ∃ p ∈ patterns, path.length < p.length := by
  rcases h with rfl | ⟨w, hw, hle⟩
  · obtain ⟨p, hp⟩ := List.exists_mem_of_ne_nil patterns hne
    exact ⟨p, hp, List.length_pos_iff.mpr (hpatterns p hp)⟩
  · obtain ⟨p, hp, rfl⟩ := List.mem_map.mp hw
    have hlen := hle.length_le
    have hpos := List.length_pos_iff.mpr (hpatterns p hp)
    rw [List.length_dropLast] at hlen
    exact ⟨p, hp, by omega⟩

/-! ### Emitting -/

variable {input future : Bytes} {limit cursor : Nat}

/-- The input up to a position before which no pattern starts is copied. -/
theorem replaced_copy {stop : Nat} (hle : cursor ≤ stop) (hstop : stop ≤ input.length)
    (hnone : ∀ i, cursor ≤ i → i < stop → NoneAt patterns (input.drop i))
    (hstable : ∀ i < stop, Stable patterns (input.drop i) future) {out : Bytes}
    (h : Replaced patterns execRedactionMarker (input.drop stop ++ future) out) :
    Replaced patterns execRedactionMarker (input.drop cursor ++ future)
      ((input.drop cursor).take (stop - cursor) ++ out) := by
  have hlen : stop - cursor ≤ (input.drop cursor).length := by
    rw [List.length_drop]
    omega
  have htake : (input.drop cursor ++ future).take (stop - cursor) = _ :=
    List.take_append_of_le_length hlen
  rw [← htake]
  refine Replaced.copy_take (fun i hi => ?_) ?_
  · rw [List.drop_append_of_le_length (by omega), List.drop_drop]
    exact (hnone _ (Nat.le_add_right _ _) (by omega)).append (hstable _ (by omega))
  · rwa [List.drop_append_of_le_length hlen, List.drop_drop, Nat.add_sub_cancel' hle]

/-- The rest before the limit, where no pattern starts. -/
theorem replaced_before_limit (hlimit : limit ≤ input.length)
    (hnone : ∀ i, cursor ≤ i → i < limit → NoneAt patterns (input.drop i))
    (hstable : ∀ i < limit, Stable patterns (input.drop i) future) {out : Bytes}
    (h : Replaced patterns execRedactionMarker (input.drop (max limit cursor) ++ future) out) :
    Replaced patterns execRedactionMarker (input.drop cursor ++ future)
      ((input.take limit).drop cursor ++ out) := by
  by_cases hle : limit ≤ cursor
  · have hnil : (input.take limit).drop cursor = [] := by
      rw [List.drop_eq_nil_iff, List.length_take]
      omega
    rw [max_eq_right hle] at h
    rwa [hnil, List.nil_append]
  · have hlt := Nat.le_of_not_le hle
    rw [max_eq_left hlt] at h
    rw [List.drop_take]
    exact replaced_copy hlt hlimit hnone hstable h

/-- **What is emitted before the limit.** Whatever comes behind the input, it is what replacing in
the whole writes there, and the rest is replaced behind what was consumed. -/
theorem emitMatches_replaced {found : List (Nat × Nat)} (h : Matches patterns input cursor found)
    (hlimit : limit ≤ input.length) (hcursor : cursor ≤ input.length) :
    limit ≤ (emitMatches input limit cursor (max limit cursor) found).2 ∧
    (emitMatches input limit cursor (max limit cursor) found).2 ≤ input.length ∧
    ∀ future, (∀ i < limit, Stable patterns (input.drop i) future) → ∀ out,
      Replaced patterns execRedactionMarker
        (input.drop (emitMatches input limit cursor (max limit cursor) found).2 ++ future) out →
      Replaced patterns execRedactionMarker (input.drop cursor ++ future)
        ((emitMatches input limit cursor (max limit cursor) found).1 ++ out) := by
  induction h with
  | @none cursor hnone =>
      exact ⟨le_max_left _ _, max_le hlimit hcursor, fun future hstable out hout =>
        replaced_before_limit hlimit (fun i hi _ => hnone i hi) hstable hout⟩
  | @next cursor start p rest hle hfirst hlongest _ ih =>
      by_cases hstart : start ≥ limit
      · rw [emitMatches, if_pos hstart]
        exact ⟨le_max_left _ _, max_le hlimit hcursor, fun future hstable out hout =>
          replaced_before_limit hlimit (fun i hi hlt => hfirst i hi (by omega)) hstable hout⟩
      · have hfits : start + p.length ≤ input.length := by
          have := hlongest.isPrefix.length_le
          rw [List.length_drop] at this
          omega
        have hmax : max (max limit cursor) (start + p.length) = max limit (start + p.length) := by
          omega
        rw [emitMatches, if_neg hstart, hmax]
        obtain ⟨hge, hle', hemit⟩ := ih hfits
        refine ⟨hge, hle', fun future hstable out hout => ?_⟩
        dsimp only
        rw [List.append_assoc, List.append_assoc]
        refine replaced_copy hle (by omega) hfirst (fun i hi => hstable i (by omega)) ?_
        obtain ⟨tail, htail⟩ := hlongest.isPrefix
        have htail' : input.drop (start + p.length) = tail := by
          rw [← List.drop_drop, ← htail, List.drop_left]
        have hwhole := hlongest.append (hstable start (by omega))
        rw [← htail, List.append_assoc] at hwhole ⊢
        refine .replace hwhole ?_
        rw [← htail']
        exact hemit future hstable out hout

/-! ### The patterns -/

theorem mem_dedupAdjacent {p : Bytes} : p ∈ dedupAdjacent patterns ↔ p ∈ patterns := by
  induction patterns with
  | nil => exact Iff.rfl
  | cons q rest ih =>
      unfold dedupAdjacent
      split
      · next hhead =>
          rw [ih, List.mem_cons]
          refine ⟨.inr, fun h => h.elim (fun heq => ?_) id⟩
          rw [heq]
          exact List.mem_of_mem_head? hhead
      · rw [List.mem_cons, List.mem_cons, ih]

theorem dedupAdjacent_sublist (patterns : List Bytes) :
    (dedupAdjacent patterns).Sublist patterns := by
  induction patterns with
  | nil => exact List.Sublist.refl _
  | cons q rest ih =>
      unfold dedupAdjacent
      split
      · exact ih.cons q
      · exact ih.cons_cons q

theorem mem_normalizedPatterns {p : Bytes} :
    p ∈ normalizedPatterns patterns ↔ p ∈ patterns := by
  unfold normalizedPatterns
  rw [mem_dedupAdjacent, List.mem_mergeSort]

theorem sum_normalizedPatterns_le (patterns : List Bytes) :
    ((normalizedPatterns patterns).map List.length).sum ≤ (patterns.map List.length).sum := by
  have hsub := (dedupAdjacent_sublist
    (patterns.mergeSort fun left right => decide (left ≤ right))).map List.length
  have hperm := (List.mergeSort_perm patterns fun left right => decide (left ≤ right)).map List.length
  calc ((normalizedPatterns patterns).map List.length).sum
      ≤ ((patterns.mergeSort fun left right => decide (left ≤ right)).map List.length).sum :=
        hsub.sum_le_sum fun _ _ => Nat.zero_le _
    _ = (patterns.map List.length).sum := hperm.sum_nat

theorem validatePatternLens_ok {total : Nat}
    (htotal : total ≤ maxExecRedactionPatternBytes)
    (h : validatePatternLens total patterns = .ok ⟨⟩) :
    (∀ p ∈ patterns, minRedactableLen ≤ p.length ∧ p.length ≤ maxExecRedactionPatternLen) ∧
      total + (patterns.map List.length).sum ≤ maxExecRedactionPatternBytes := by
  induction patterns generalizing total with
  | nil => exact ⟨fun p hp => absurd hp List.not_mem_nil, htotal⟩
  | cons q rest ih =>
      unfold validatePatternLens at h
      rw [ite_error_eq_ok, ite_error_eq_ok, ite_error_eq_ok, ite_error_eq_ok] at h
      obtain ⟨hmin, hmax, -, hbytes, h⟩ := h
      obtain ⟨hlens, hsum⟩ := ih (by omega) h
      rw [List.map_cons, List.sum_cons]
      refine ⟨?_, by omega⟩
      rw [List.forall_mem_cons]
      exact ⟨⟨by omega, by omega⟩, hlens⟩

theorem validatePatterns_ok (h : validatePatterns patterns = .ok ⟨⟩) :
    (∀ p ∈ patterns, minRedactableLen ≤ p.length ∧ p.length ≤ maxExecRedactionPatternLen) ∧
      (patterns.map List.length).sum ≤ maxExecRedactionPatternBytes := by
  unfold validatePatterns at h
  rw [ite_error_eq_ok] at h
  have hlens := validatePatternLens_ok (Nat.zero_le _) h.2
  rwa [Nat.zero_add] at hlens

theorem ne_nil_of_validatePatterns (h : validatePatterns patterns = .ok ⟨⟩) :
    ∀ p ∈ patterns, p ≠ [] := by
  intro p hp
  have := ((validatePatterns_ok h).1 p hp).1
  unfold minRedactableLen at this
  exact List.length_pos_iff.mp (by omega)

/-! ### The redactor -/

variable {redactor : StreamingRedactor}

/-- A redactor of some patterns: what it was built with, and what it holds back. -/
structure StreamingRedactor.Ready (patterns : List Bytes) (redactor : StreamingRedactor) :
    Prop where
  matcher : ∃ findIter, redactor.matcher = some findIter ∧
    ∀ text, Matches patterns text 0 (findIter text)
  prefixes : ∃ matcher, redactor.prefixes = some matcher ∧ matcher.Exact patterns
  capacity : ∀ p ∈ patterns, p.length - 1 + maxExecOutputChunkLen ≤ redactor.capacity
  pending : ∃ p ∈ patterns, redactor.pending.length < p.length

/-- **One chunk.** What is written and what is held back make up what replacing writes, whatever
comes next. -/
theorem StreamingRedactor.Ready.pushChunk (h : redactor.Ready patterns)
    (hpatterns : ∀ p ∈ patterns, p ≠ []) {chunk : Bytes}
    (hchunk : chunk.length ≤ maxExecOutputChunkLen) :
    ∃ redactor' out, redactor.pushChunk chunk = .ok (redactor', out) ∧ redactor'.Ready patterns ∧
      ∀ future rest, Replaced patterns execRedactionMarker (redactor'.pending ++ future) rest →
        Replaced patterns execRedactionMarker (redactor.pending ++ (chunk ++ future))
          (out ++ rest) := by
  obtain ⟨findIter, hmatcher, hfind⟩ := h.matcher
  obtain ⟨prefixes, hprefixes, hexact⟩ := h.prefixes
  obtain ⟨longest, hlongest, hpending⟩ := h.pending
  have hcapacity := h.capacity longest hlongest
  unfold StreamingRedactor.pushChunk
  rw [if_neg (by omega), hmatcher]
  dsimp only
  by_cases hnil : chunk = []
  · rw [if_pos hnil, hnil]
    exact ⟨_, _, rfl, h, fun future rest hrest => hrest⟩
  · rw [if_neg hnil, if_neg (by omega), hprefixes]
    dsimp only
    obtain ⟨path, hheld⟩ := exists_held (patterns.map List.dropLast) (redactor.pending ++ chunk)
    rw [hexact _ path hheld]
    dsimp only
    have hpath := hheld.isSuffix.length_le
    have hne : patterns ≠ [] := List.ne_nil_of_mem hlongest
    obtain ⟨q, hq, hlt⟩ := exists_length_lt_of_triePath hne hpatterns hheld.triePath
    by_cases hzero : (redactor.pending ++ chunk).length - path.length = 0
    · rw [if_pos hzero]
      refine ⟨_, _, rfl, ⟨⟨findIter, rfl, hfind⟩, ⟨prefixes, rfl, hexact⟩, h.capacity,
        q, hq, ?_⟩, fun future rest hrest => ?_⟩
      · show (redactor.pending ++ chunk).length < q.length
        omega
      · rwa [← List.append_assoc]
    · rw [if_neg hzero]
      obtain ⟨hge, hle, hemit⟩ := emitMatches_replaced (hfind (redactor.pending ++ chunk))
        (Nat.sub_le _ path.length) (Nat.zero_le _)
      rw [Nat.max_zero] at hge hle hemit
      refine ⟨_, _, rfl, ⟨⟨findIter, rfl, hfind⟩, ⟨prefixes, rfl, hexact⟩, h.capacity,
        q, hq, ?_⟩, fun future rest hrest => ?_⟩
      · show ((redactor.pending ++ chunk).drop _).length < q.length
        rw [List.length_drop]
        omega
      · -- in front of what is held back, no match can grow any more
        have hstable (i : Nat) (hi : i < (redactor.pending ++ chunk).length - path.length) :
            Stable patterns ((redactor.pending ++ chunk).drop i) future :=
          stable_of_not_grows (not_grows_of_held hheld hi) future
        have := hemit future hstable rest hrest
        rwa [List.drop_zero, List.append_assoc] at this

/-- All chunks. -/
theorem StreamingRedactor.Ready.pushChunks (h : redactor.Ready patterns)
    (hpatterns : ∀ p ∈ patterns, p ≠ [])
    (hchunks : ∀ chunk ∈ chunks, chunk.length ≤ maxExecOutputChunkLen) :
    ∃ redactor' out, redactor.pushChunks chunks = .ok (redactor', out) ∧ redactor'.Ready patterns ∧
      ∀ future rest, Replaced patterns execRedactionMarker (redactor'.pending ++ future) rest →
        Replaced patterns execRedactionMarker (redactor.pending ++ (chunks.flatten ++ future))
          (out ++ rest) := by
  induction chunks generalizing redactor with
  | nil => exact ⟨redactor, [], rfl, h, fun future rest hrest => hrest⟩
  | cons chunk chunks ih =>
      rw [List.forall_mem_cons] at hchunks
      obtain ⟨mid, out, hpush, hmid, hout⟩ := h.pushChunk hpatterns hchunks.1
      obtain ⟨last, out', hpushes, hlast, hout'⟩ := ih hmid hchunks.2
      refine ⟨last, out ++ out', ?_, hlast, fun future rest hrest => ?_⟩
      · rw [StreamingRedactor.pushChunks, bind_eq_ok]
        exact ⟨(mid, out), hpush, bind_eq_ok.mpr ⟨(last, out'), hpushes, rfl⟩⟩
      · rw [List.flatten_cons, List.append_assoc, List.append_assoc]
        exact hout _ _ (hout' future rest hrest)

/-- The end of the output: all that was held back is written. -/
theorem StreamingRedactor.Ready.finish (h : redactor.Ready patterns) :
    ∃ out, redactor.finish = .ok out ∧
      Replaced patterns execRedactionMarker redactor.pending out := by
  obtain ⟨findIter, hmatcher, hfind⟩ := h.matcher
  obtain ⟨hge, hle, hemit⟩ := emitMatches_replaced (hfind redactor.pending) (Nat.le_refl _)
    (Nat.zero_le _)
  rw [Nat.max_zero] at hge hle hemit
  have hall := Nat.le_antisymm hle hge
  unfold StreamingRedactor.finish
  rw [hmatcher]
  dsimp only
  rw [if_neg (not_not.mpr hall)]
  refine ⟨_, rfl, ?_⟩
  have := hemit [] (fun i _ => stable_nil _ _) [] (by
    rw [hall, List.drop_length]
    exact .nil)
  rwa [List.drop_zero, List.append_nil, List.append_nil] at this

/-- A redactor of patterns that are not there writes what it gets. -/
theorem StreamingRedactor.pushChunks_of_matcher_none (hmatcher : redactor.matcher = none)
    (hchunks : ∀ chunk ∈ chunks, chunk.length ≤ maxExecOutputChunkLen) :
    redactor.pushChunks chunks = .ok (redactor, chunks.flatten) := by
  induction chunks with
  | nil => rfl
  | cons chunk chunks ih =>
      rw [List.forall_mem_cons] at hchunks
      have hpush : redactor.pushChunk chunk = .ok (redactor, chunk) := by
        unfold StreamingRedactor.pushChunk
        rw [if_neg (by omega), hmatcher]
      rw [StreamingRedactor.pushChunks, bind_eq_ok]
      exact ⟨(redactor, chunk), hpush, bind_eq_ok.mpr ⟨(redactor, chunks.flatten), ih hchunks.2, rfl⟩⟩

/-- The constructor succeeds on what `validate_patterns` accepts. -/
theorem StreamingRedactor.exists_new (hlibs : libs.Lawful)
    (hvalid : validatePatterns patterns = .ok ⟨⟩) :
    ∃ redactor, StreamingRedactor.new libs patterns = .ok redactor ∧ redactor.pending = [] ∧
      (patterns = [] → redactor.matcher = none) ∧
      (patterns ≠ [] → redactor.Ready (normalizedPatterns patterns)) := by
  obtain ⟨hlens, hsum⟩ := validatePatterns_ok hvalid
  have hnormal (p : Bytes) (hp : p ∈ normalizedPatterns patterns) :=
    hlens p (mem_normalizedPatterns.mp hp)
  have hmax : ((normalizedPatterns patterns).map List.length).foldr max 0 ≤
      maxExecRedactionPatternLen := by
    refine List.max_le_of_forall_le ((normalizedPatterns patterns).map _) _ fun n hn => ?_
    obtain ⟨p, hp, rfl⟩ := List.mem_map.mp hn
    exact (hnormal p hp).2
  have hbound : ((normalizedPatterns patterns).map List.length).foldr max 0 - 1 +
      maxExecOutputChunkLen < 2 ^ 64 := by
    unfold maxExecRedactionPatternLen at hmax
    unfold maxExecOutputChunkLen
    omega
  -- the limits of the patterns keep the capacity within 64 bits
  unfold StreamingRedactor.new
  rw [hvalid]
  dsimp only [bind, Except.bind]
  have hlen (p : Bytes) (hp : p ∈ normalizedPatterns patterns) :
      p.length ≤ ((normalizedPatterns patterns).map List.length).foldr max 0 :=
    List.le_max_of_le (List.mem_map_of_mem hp) (Nat.le_refl _)
  generalize ((normalizedPatterns patterns).map List.length).foldr max 0 = maxLen at hbound hlen ⊢
  by_cases hnil : normalizedPatterns patterns = []
  · have hpatterns : patterns = [] := by
      refine List.eq_nil_iff_forall_not_mem.mpr fun p hp => ?_
      rw [← mem_normalizedPatterns, hnil] at hp
      exact absurd hp List.not_mem_nil
    refine ⟨⟨none, none, maxLen, maxLen - 1 + maxExecOutputChunkLen, []⟩, ?_, rfl, fun _ => rfl,
      fun hne => absurd hpatterns hne⟩
    simp only [if_pos hnil, if_pos hbound]
  · have hlong (p : Bytes) (hp : p ∈ normalizedPatterns patterns) : 1 < p.length :=
      Nat.lt_of_lt_of_le (by decide) (hnormal p hp).1
    have hne (p : Bytes) (hp : p ∈ normalizedPatterns patterns) : p ≠ [] :=
      List.ne_nil_of_length_pos (Nat.zero_lt_of_lt (hlong p hp))
    have hsum' := (sum_normalizedPatterns_le patterns).trans hsum
    obtain ⟨findIter, hbuild, hfind⟩ := hlibs.buildMatcher _ hne hsum'
    obtain ⟨prefixes, hprefixes, hexact⟩ := exists_prefixMatcher hlibs hlong hsum'
    refine ⟨⟨some findIter, some prefixes, maxLen, maxLen - 1 + maxExecOutputChunkLen, []⟩, ?_, rfl,
      fun hpatterns => ?_, fun _ => ⟨⟨findIter, rfl, hfind⟩, ⟨prefixes, rfl, hexact⟩,
        fun p hp => ?_, ?_⟩⟩
    · simp only [if_neg hnil, hbuild, hprefixes, if_pos hbound]
    · obtain ⟨p, hp⟩ := List.exists_mem_of_ne_nil _ hnil
      rw [mem_normalizedPatterns, hpatterns] at hp
      exact absurd hp List.not_mem_nil
    · have hle := hlen p hp
      show p.length - 1 + maxExecOutputChunkLen ≤ maxLen - 1 + maxExecOutputChunkLen
      omega
    · obtain ⟨p, hp⟩ := List.exists_mem_of_ne_nil _ hnil
      exact ⟨p, hp, List.length_pos_iff.mpr (hne p hp)⟩

/-- **No secret is written.** However an output is cut, what is written is the output with secrets
replaced and everything between them copied, and no secret lies in what is copied. -/
theorem no_secret_written (hlibs : libs.Lawful) (hvalid : validatePatterns patterns = .ok ⟨⟩)
    (hchunks : ∀ chunk ∈ chunks, chunk.length ≤ maxExecOutputChunkLen) :
    ∃ redactor redactor' out tail segments last,
      StreamingRedactor.new libs patterns = .ok redactor ∧
      redactor.pushChunks chunks = .ok (redactor', out) ∧ redactor'.finish = .ok tail ∧
      Segmented patterns execRedactionMarker chunks.flatten (out ++ tail) segments last := by
  obtain ⟨redactor, hnew, hpending, hnone, hready⟩ := StreamingRedactor.exists_new hlibs hvalid
  by_cases hnil : patterns = []
  · subst hnil
    refine ⟨redactor, redactor, _, [], [], chunks.flatten, hnew,
      StreamingRedactor.pushChunks_of_matcher_none (hnone rfl) hchunks, ?_, rfl, List.append_nil _,
      by simp, by simp⟩
    simp [StreamingRedactor.finish, hnone rfl, hpending]
  · have hne (p : Bytes) (hp : p ∈ normalizedPatterns patterns) : p ≠ [] :=
      ne_nil_of_validatePatterns hvalid p (mem_normalizedPatterns.mp hp)
    obtain ⟨redactor', out, hpush, hready', hout⟩ := (hready hnil).pushChunks hne hchunks
    obtain ⟨tail, hfinish, htail⟩ := hready'.finish
    have hwhole := hout [] tail (by rwa [List.append_nil])
    rw [hpending, List.nil_append, List.append_nil] at hwhole
    obtain ⟨segments, last, htext, hout, hmem, hfree⟩ := hwhole.exists_segmented hne
    simp only [mem_normalizedPatterns] at hmem hfree
    exact ⟨redactor, redactor', out, tail, segments, last, hnew, hpush, hfinish, htext, hout, hmem,
      hfree⟩

end Streaming

/-- **Redaction does not depend on the chunks.** However an output is cut, what is written is the
output with its leftmost-longest matches replaced. Nothing fails, and what is held back is shorter
than some pattern, so that a further chunk fits. -/
theorem redaction_chunk_independent {libs : RedactionLibraries} (hlibs : libs.Lawful)
    {patterns : List Bytes} (hvalid : validatePatterns patterns = .ok ⟨⟩) :
    ∃ redactor, StreamingRedactor.new libs patterns = .ok redactor ∧
      ∀ chunks : List Bytes, (∀ chunk ∈ chunks, chunk.length ≤ maxExecOutputChunkLen) →
        ∃ redactor' out tail, redactor.pushChunks chunks = .ok (redactor', out) ∧
          redactor'.finish = .ok tail ∧
          (∃ found, Matches patterns chunks.flatten 0 found) ∧
          (∀ found, Matches patterns chunks.flatten 0 found →
            out ++ tail = replaceMatches execRedactionMarker chunks.flatten 0 found) ∧
          (patterns = [] → redactor'.pending = []) ∧
          (patterns ≠ [] → (∃ p ∈ patterns, redactor'.pending.length < p.length) ∧
            redactor'.pending.length + maxExecOutputChunkLen ≤ redactor'.capacity) := by
  have hne := ne_nil_of_validatePatterns hvalid
  obtain ⟨redactor, hnew, hpending, hnone, hready⟩ := StreamingRedactor.exists_new hlibs hvalid
  refine ⟨redactor, hnew, fun chunks hchunks => ?_⟩
  by_cases hnil : patterns = []
  · have hmatcher := hnone hnil
    refine ⟨redactor, chunks.flatten, [],
      StreamingRedactor.pushChunks_of_matcher_none hmatcher hchunks, ?_,
      exists_matches hne _ _, fun found hfound => ?_, fun _ => hpending, fun h => absurd hnil h⟩
    · unfold StreamingRedactor.finish
      rw [hmatcher]
      exact if_neg (not_not.mpr hpending)
    · rw [List.append_nil]
      cases hfound with
      | none _ => rfl
      | next _ _ hlongest _ =>
          rw [hnil] at hlongest
          exact absurd hlongest.mem List.not_mem_nil
  · have hne' (p : Bytes) (hp : p ∈ normalizedPatterns patterns) : p ≠ [] :=
      hne p (mem_normalizedPatterns.mp hp)
    obtain ⟨redactor', out, hpush, hready', hout⟩ := (hready hnil).pushChunks hne' hchunks
    obtain ⟨tail, hfinish, htail⟩ := hready'.finish
    obtain ⟨p, hp, hlt⟩ := hready'.pending
    refine ⟨redactor', out, tail, hpush, hfinish, exists_matches hne _ _, fun found hfound => ?_,
      fun h => absurd h hnil, fun _ => ⟨⟨p, mem_normalizedPatterns.mp hp, hlt⟩, ?_⟩⟩
    · have hwhole := hout [] tail (by rwa [List.append_nil])
      rw [hpending, List.nil_append, List.append_nil] at hwhole
      have hmatches : Matches (normalizedPatterns patterns) chunks.flatten 0 found :=
        hfound.congr fun _ => mem_normalizedPatterns
      exact hwhole.unique hne' hmatches.replaced
    · have := hready'.capacity p hp
      omega

/-! ### A lawful library -/

namespace SampleRedaction

open Classical in
noncomputable def libs : RedactionLibraries where
  buildMatcher patterns :=
    if h : ∀ p ∈ patterns, p ≠ [] then some fun text => (exists_matches h text 0).choose else none
  buildNfa words := some
    { startState := (exists_tracks words).choose
      nextState := (exists_tracks words).choose_spec.choose }

theorem lawful_libs : libs.Lawful where
  buildMatcher patterns h _ := by
    refine ⟨_, dif_pos h, fun text => (exists_matches h text 0).choose_spec⟩
  buildNfa words _ _ := ⟨_, rfl, (exists_tracks words).choose_spec.choose_spec⟩

def patterns : List Bytes :=
  ["pass".toUTF8.toList, "password".toUTF8.toList]

/-- The longer secret, cut where the shorter one is not yet complete. -/
def chunks : List Bytes :=
  ["a pas".toUTF8.toList, [], "sword".toUTF8.toList]

theorem matches_chunks :
    Matches patterns chunks.flatten 0 [(2, 2 + "password".toUTF8.toList.length)] := by
  refine .next (Nat.zero_le 2) (fun i _ hi => ?_) ⟨?_, ?_, ?_⟩ (.none fun i hi => ?_)
  · obtain rfl | rfl : i = 0 ∨ i = 1 := by omega
    · unfold NoneAt
      decide +kernel
    · unfold NoneAt
      decide +kernel
  · decide +kernel
  · decide +kernel
  · decide +kernel
  · have hlen : chunks.flatten.length ≤ i := le_trans (by decide +kernel) hi
    unfold NoneAt
    rw [List.drop_eq_nil_of_le hlen]
    decide +kernel

theorem redaction_chunk_independent_two_secrets :
    ∃ redactor, StreamingRedactor.new libs patterns = .ok redactor ∧
      ∃ redactor' out tail, redactor.pushChunks chunks = .ok (redactor', out) ∧
        redactor'.finish = .ok tail ∧ out ++ tail = "a [REDACTED]".toUTF8.toList := by
  have hvalid : validatePatterns patterns = .ok ⟨⟩ := by decide +kernel
  obtain ⟨redactor, hnew, hchunks⟩ := redaction_chunk_independent lawful_libs hvalid
  obtain ⟨redactor', out, tail, hpush, hfinish, -, hout, -⟩ := hchunks chunks (by decide +kernel)
  refine ⟨redactor, hnew, redactor', out, tail, hpush, hfinish, ?_⟩
  rw [hout _ matches_chunks]
  decide +kernel

theorem no_secret_written_two_secrets : ∃ redactor redactor' out tail segments last,
    StreamingRedactor.new libs patterns = .ok redactor ∧
      redactor.pushChunks chunks = .ok (redactor', out) ∧ redactor'.finish = .ok tail ∧
      Segmented patterns execRedactionMarker chunks.flatten (out ++ tail) segments last :=
  no_secret_written lawful_libs (by decide +kernel) (by decide +kernel)

end SampleRedaction

end Jig.Vault
