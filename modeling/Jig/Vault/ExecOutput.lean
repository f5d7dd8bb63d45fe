import Jig.Vault.Witness

/-!
# Streaming redaction

The redactor that the output of a program goes through chunk by chunk (`jig-vault`, `exec_output.rs`
and `exec_output/prefix.rs`). What was read and may still grow into a secret is held back in
`pending`; the rest is written, each leftmost-longest match of a secret replaced by a marker.

The automata of `aho_corasick` are given: one that finds the matches of a text, and one whose states
are walked byte by byte. Zeroing memory is not modelled, and a writer does not fail; where the
source asserts or indexes, the functions fail instead.
-/

namespace Jig.Vault

open Lib

def execRedactionMarker : Bytes :=
  "[REDACTED]".toUTF8.toList

def minRedactableLen : Nat := 4

def maxExecRedactionPatterns : Nat := 4096

def maxExecRedactionPatternBytes : Nat := 16 * 1024 * 1024

def maxExecRedactionPatternLen : Nat := 512 * 1024

def maxExecOutputChunkLen : Nat := 64 * 1024

/-! ### The automata -/

/-- `aho_corasick::nfa::noncontiguous::NFA`, searched without an anchor. -/
structure Nfa where
  startState : Nat
  nextState : Nat → UInt8 → Nat

/-- The functions of `aho_corasick` that are used. -/
structure RedactionLibraries where
  /-- `AhoCorasickBuilder::build` for leftmost-longest matches, and `find_iter` of what is built: the
  start and the end of each match. -/
  buildMatcher : List Bytes → Option (Bytes → List (Nat × Nat))
  /-- `NFA::new`. -/
  buildNfa : List Bytes → Option Nfa

variable (libs : RedactionLibraries)

structure PrefixMatcher where
  automaton : Nfa
  depths : List Nat

/-- `Vec::resize` and the assignment of `PrefixMatcher::new`. -/
def setDepth (depths : List Nat) (index depth : Nat) : List Nat :=
  (if depths.length ≤ index then depths ++ List.replicate (index + 1 - depths.length) 0
    else depths).set index depth

/-- The inner loop of `PrefixMatcher::new`. -/
def recordDepths (automaton : Nfa) : Nat → Nat → Bytes → List Nat → List Nat
  | _, _, [], depths => depths
  | state, index, byte :: rest, depths =>
      recordDepths automaton (automaton.nextState state byte) (index + 1) rest
        (setDepth depths (automaton.nextState state byte) (index + 1))

variable (patterns : List Bytes)

def PrefixMatcher.new : Except VaultError PrefixMatcher :=
  match libs.buildNfa (patterns.map List.dropLast) with
  | none => .error (classified .internal "failed to build bounded vault output prefix matcher")
  | some automaton =>
      .ok
        { automaton
          depths := patterns.foldl
            (fun depths pattern =>
              recordDepths automaton automaton.startState 0 pattern.dropLast depths)
            (List.replicate (automaton.startState + 1) 0) }

def PrefixMatcher.suffixLen (matcher : PrefixMatcher) (input : Bytes) : Option Nat :=
  matcher.depths[input.foldl matcher.automaton.nextState matcher.automaton.startState]?

/-! ### Patterns -/

/-- The loop of `validate_patterns`. -/
def validatePatternLens : Nat → List Bytes → Except VaultError Unit
  | _, [] => .ok ⟨⟩
  | total, pattern :: rest =>
      if pattern.length < minRedactableLen then
        .error (classified .invalidInput
          s!"vault output redaction patterns must be at least {minRedactableLen} bytes")
      else if pattern.length > maxExecRedactionPatternLen then
        .error (classified .invalidInput
          (s!"vault output redaction pattern exceeds the {maxExecRedactionPatternLen} byte length " ++
            "limit"))
      else if total + pattern.length ≥ 2 ^ 64 then
        .error (classified .invalidInput
          "vault output redaction pattern bytes exceed supported bounds")
      else if total + pattern.length > maxExecRedactionPatternBytes then
        .error (classified .invalidInput
          (s!"vault output redaction patterns exceed the {maxExecRedactionPatternBytes} byte total " ++
            "limit"))
      else
        validatePatternLens (total + pattern.length) rest

def validatePatterns : Except VaultError Unit :=
  if patterns.length > maxExecRedactionPatterns then
    .error (classified .invalidInput
      s!"vault output redaction has more than {maxExecRedactionPatterns} patterns")
  else
    validatePatternLens 0 patterns

/-- `Vec::dedup_by` with equality. -/
def dedupAdjacent : List Bytes → List Bytes
  | [] => []
  | pattern :: rest =>
      if rest.head? = some pattern then dedupAdjacent rest else pattern :: dedupAdjacent rest

def normalizedPatterns : List Bytes :=
  dedupAdjacent (patterns.mergeSort fun left right => decide (left ≤ right))

/-! ### The redactor -/

structure StreamingRedactor where
  matcher : Option (Bytes → List (Nat × Nat))
  prefixes : Option PrefixMatcher
  maxPatternLen : Nat
  /-- The capacity of `pending`. -/
  capacity : Nat
  pending : Bytes

def StreamingRedactor.new (patterns : List Bytes) : Except VaultError StreamingRedactor := do
  validatePatterns patterns
  let patterns := normalizedPatterns patterns
  let maxPatternLen := (patterns.map List.length).foldr max 0
  let matcher ←
    if patterns = [] then .ok none
    else
      match libs.buildMatcher patterns with
      | none => .error (classified .internal "failed to build bounded vault output redaction matcher")
      | some matcher => .ok (some matcher)
  let prefixes ←
    if patterns = [] then .ok none
    else do
      let prefixes ← PrefixMatcher.new libs patterns
      .ok (some prefixes)
  if maxPatternLen - 1 + maxExecOutputChunkLen < 2 ^ 64 then
    .ok
      { matcher, prefixes, maxPatternLen, capacity := maxPatternLen - 1 + maxExecOutputChunkLen
        pending := [] }
  else
    .error (classified .internal "vault output redaction working-memory bound overflowed")

/-- The loop of `emit_matches`, with what it writes and what it returns. -/
def emitMatches (input : Bytes) (safeStartLimit : Nat) :
    Nat → Nat → List (Nat × Nat) → Bytes × Nat
  | cursor, consumed, [] => ((input.take safeStartLimit).drop cursor, consumed)
  | cursor, consumed, (start, stop) :: rest =>
      if start ≥ safeStartLimit then
        ((input.take safeStartLimit).drop cursor, consumed)
      else
        let (out, consumed) := emitMatches input safeStartLimit stop (max consumed stop) rest
        ((input.drop cursor).take (start - cursor) ++ (execRedactionMarker ++ out), consumed)

/-- `push_chunk`: the redactor that is left, and what is written. -/
def StreamingRedactor.pushChunk (redactor : StreamingRedactor) (chunk : Bytes) :
    Except String (StreamingRedactor × Bytes) :=
  if chunk.length > maxExecOutputChunkLen then
    .error s!"vault output chunk exceeds the {maxExecOutputChunkLen} byte matcher bound"
  else
    match redactor.matcher with
    | none => .ok (redactor, chunk)
    | some findIter =>
        if chunk = [] then
          .ok (redactor, [])
        else if redactor.pending.length + chunk.length > redactor.capacity then
          .error "streaming redaction pending allocation exceeded its constructor bound"
        else
          let pending := redactor.pending ++ chunk
          match redactor.prefixes with
          | none => .error "a nonempty matcher has a prefix matcher"
          | some prefixes =>
              match prefixes.suffixLen pending with
              | none => .error "index out of bounds"
              | some suffixLen =>
                  let safeStartLimit := pending.length - suffixLen
                  if safeStartLimit = 0 then
                    .ok ({ redactor with pending }, [])
                  else
                    let (out, consumed) :=
                      emitMatches pending safeStartLimit 0 safeStartLimit (findIter pending)
                    .ok ({ redactor with pending := pending.drop consumed }, out)

def StreamingRedactor.finish (redactor : StreamingRedactor) : Except String Bytes :=
  match redactor.matcher with
  | some findIter =>
      let (out, consumed) := emitMatches redactor.pending redactor.pending.length 0
        redactor.pending.length (findIter redactor.pending)
      if consumed ≠ redactor.pending.length then
        .error "assertion `left == right` failed"
      else
        .ok out
  | none =>
      if redactor.pending ≠ [] then .error "assertion failed: self.pending.is_empty()" else .ok []

def StreamingRedactor.pushChunks (redactor : StreamingRedactor) :
    List Bytes → Except String (StreamingRedactor × Bytes)
  | [] => .ok (redactor, [])
  | chunk :: rest => do
      let (redactor, out) ← redactor.pushChunk chunk
      let (redactor, out') ← redactor.pushChunks rest
      .ok (redactor, out ++ out')

end Jig.Vault
