import Jig.Lib.Fallible

/-!
# The token budget of Rust sources

`check_token_complexity` walks the streams of a token tree with an explicit stack. The children of a
region are pushed when the region ends, each with the cost of the whole region. The walk accepts a
tree exactly when, in every stream, each region is within the limit together with the regions around
it.
-/

namespace Jig.Policy

open Lib

/-- `proc_macro2::TokenTree`; identifiers and literals are told apart by nobody. -/
inductive TokenTree where
  | group (stream : List TokenTree)
  | punct (char : Char)
  | other

/-- A token stream, with the cost of the regions around it. -/
abbrev Charged := List TokenTree × Nat

def maxTokenPathCost : Nat := 2048

def complexityMessage (purpose : String) : String :=
  s!"{purpose}: Rust source exceeds token complexity limit ({maxTokenPathCost} tokens along " ++
    "enclosing semicolon-separated regions); simplify nested syntax or split long " ++
    "expressions/declarations"

/-- The loop over one stream: what it pushes. -/
def chargeTokens (purpose : String) (ancestors : Nat) :
    Nat → List (List TokenTree) → List TokenTree → Except String (List Charged)
  | cost, children, [] => .ok (children.map (·, cost))
  | cost, children, token :: tokens =>
      if cost + 1 > maxTokenPathCost then .error (complexityMessage purpose)
      else
        match token with
        | .group stream => chargeTokens purpose ancestors (cost + 1) (children ++ [stream]) tokens
        | .punct ';' => do
            let pushed ← chargeTokens purpose ancestors ancestors [] tokens
            return children.map (·, cost + 1) ++ pushed
        | _ => chargeTokens purpose ancestors (cost + 1) children tokens

/-! ## Regions -/

def TokenTree.isSemicolon : TokenTree → Bool
  | .punct ';' => true
  | _ => false

/-- The regions of a stream; a semicolon belongs to the region it ends. -/
def regions : List TokenTree → List (List TokenTree)
  | [] => []
  | token :: tokens =>
      if token.isSemicolon then [token] :: regions tokens
      else
        match regions tokens with
        | [] => [[token]]
        | region :: later => (token :: region) :: later

def groups (region : List TokenTree) : List (List TokenTree) :=
  region.filterMap fun
    | .group stream => some stream
    | _ => none

/-- The groups of complete regions, charged with their region. -/
def charged (ancestors : Nat) (later : List (List TokenTree)) : List Charged :=
  later.flatMap fun region => (groups region).map (·, ancestors + region.length)

/-- Is every region within the limit? -/
def Fits (stream : Charged) : Prop :=
  ∀ region ∈ regions stream.1, stream.2 + region.length ≤ maxTokenPathCost

/-- The stream of a group, charged with the region that contains the group. -/
def Inner (outer inner : Charged) : Prop :=
  ∃ region ∈ regions outer.1, inner.1 ∈ groups region ∧ inner.2 = outer.2 + region.length

/-- What the loop has done with the regions ahead, in the middle of a region of which `cost` and
`children` are what came before. -/
def Charges (ancestors cost : Nat) (children : List (List TokenTree)) (pushed : List Charged) :
    List (List TokenTree) → Prop
  | [] => pushed = children.map (·, cost)
  | region :: later =>
      (cost + region.length ≤ maxTokenPathCost ∧
        ∀ r ∈ later, ancestors + r.length ≤ maxTokenPathCost) ∧
      pushed = (children ++ groups region).map (·, cost + region.length) ++ charged ancestors later

variable {tokens : List TokenTree}

section Walk

variable {purpose : String} {ancestors : Nat} {pushed : List Charged}
  {children : List (List TokenTree)}

theorem charges_start :
    Charges ancestors ancestors [] pushed (regions tokens) ↔
      Fits (tokens, ancestors) ∧ pushed = charged ancestors (regions tokens) := by
  unfold Fits
  cases regions tokens with
  | nil => simp [Charges, charged]
  | cons region later => simp [Charges, charged]

/-- A token that ends no region joins the region behind it. -/
theorem charges_join {cost : Nat} {token : TokenTree} (htoken : token.isSemicolon = false) :
    cost + 1 ≤ maxTokenPathCost ∧
        Charges ancestors (cost + 1) (children ++ groups [token]) pushed (regions tokens) ↔
      Charges ancestors cost children pushed (regions (token :: tokens)) := by
  have hgroups (region : List TokenTree) :
      groups (token :: region) = groups [token] ++ groups region :=
    List.filterMap_append (l := [token])
  rw [regions, htoken, if_neg Bool.false_ne_true]
  cases regions tokens with
  | nil => simp [Charges, charged]
  | cons region later =>
      simp only [Charges, hgroups region, List.length_cons, List.append_assoc,
        Nat.add_right_comm cost 1, ← Nat.add_assoc cost]
      constructor
      · exact And.right
      · exact fun h => ⟨by omega, h⟩

theorem chargeTokens_eq_ok {cost : Nat} :
    chargeTokens purpose ancestors cost children tokens = .ok pushed ↔
      Charges ancestors cost children pushed (regions tokens) := by
  induction tokens generalizing cost children pushed with
  | nil => simp [chargeTokens, regions, Charges, eq_comm]
  | cons token tokens ih =>
      rw [chargeTokens.eq_def]
      dsimp only
      rw [ite_error_eq_ok, Nat.not_lt]
      split
      · next stream =>
          rw [ih, ← charges_join rfl]
          rfl
      · -- a region ends, and the next one starts with the cost of the ancestors
        have hregions : regions (.punct ';' :: tokens) = [.punct ';'] :: regions tokens := rfl
        simp only [bind_eq_ok, ih, charges_start, pure_eq_ok, hregions]
        constructor
        · rintro ⟨hcost, _, ⟨hfits, rfl⟩, rfl⟩
          exact ⟨⟨hcost, hfits⟩, by simp [groups]⟩
        · rintro ⟨⟨hcost, hfits⟩, rfl⟩
          exact ⟨hcost, _, ⟨hfits, rfl⟩, by simp [groups]⟩
      · next hgroup hsemicolon =>
          have htoken : token.isSemicolon = false := by
            unfold TokenTree.isSemicolon
            split
            · exact absurd rfl hsemicolon
            · rfl
          have hgroups : groups [token] = [] := by
            cases token with
            | group stream => exact absurd rfl (hgroup stream)
            | _ => rfl
          rw [ih, ← charges_join htoken, hgroups, List.append_nil]

end Walk

/-! ## The walk -/

theorem flatten_regions (tokens : List TokenTree) : (regions tokens).flatten = tokens := by
  induction tokens with
  | nil => rfl
  | cons token tokens ih =>
      unfold regions
      split
      · rw [List.flatten_cons, ih]
        rfl
      · cases hregions : regions tokens with
        | nil =>
            rw [hregions] at ih
            rw [← ih]
            rfl
        | cons region later =>
            rw [hregions] at ih
            rw [← ih]
            rfl

noncomputable def pendingSize (pending : List Charged) : Nat :=
  (pending.map fun stream => sizeOf stream.1).sum

/-- The groups of a stream are smaller than the stream, also together. -/
theorem pendingSize_charged (ancestors : Nat) (tokens : List TokenTree) :
    pendingSize (charged ancestors (regions tokens)) < sizeOf tokens := by
  have hcharged (later : List (List TokenTree)) :
      pendingSize (charged ancestors later) = ((groups later.flatten).map sizeOf).sum := by
    induction later with
    | nil => rfl
    | cons region later ih =>
        simp only [pendingSize, charged, groups] at ih
        simp [pendingSize, charged, groups, Function.comp_def, ih]
  rw [hcharged, flatten_regions]
  induction tokens with
  | nil => simp [groups]
  | cons token tokens ih =>
      cases token with
      | group stream =>
          simp [groups] at ih ⊢
          omega
      | _ =>
          simp [groups] at ih ⊢
          omega

/-- The loop over the stack, whose top is the head. -/
def chargeStreams (purpose : String) : List Charged → Except String Unit
  | [] => .ok ⟨⟩
  | (tokens, ancestors) :: pending =>
      match _h : chargeTokens purpose ancestors ancestors [] tokens with
      | .error error => .error error
      | .ok pushed => chargeStreams purpose (pushed.reverse ++ pending)
termination_by pending => pendingSize pending
decreasing_by
  obtain ⟨-, rfl⟩ := charges_start.mp (chargeTokens_eq_ok.mp _h)
  have hsmaller := pendingSize_charged ancestors tokens
  simp [pendingSize] at hsmaller ⊢
  omega

def checkTokenComplexity (purpose : String) (tokens : List TokenTree) : Except String Unit :=
  chargeStreams purpose [(tokens, 0)]

theorem mem_charged {ancestors : Nat} {inner : Charged} :
    inner ∈ charged ancestors (regions tokens) ↔ Inner (tokens, ancestors) inner := by
  unfold charged Inner
  rw [List.mem_flatMap]
  refine exists_congr fun region => and_congr_right fun _ => ?_
  rw [List.mem_map]
  constructor
  · rintro ⟨tokens, hgroup, rfl⟩
    exact ⟨hgroup, rfl⟩
  · rintro ⟨hgroup, hcost⟩
    exact ⟨inner.1, hgroup, Prod.ext rfl hcost.symm⟩

def FitsBelow (stream : Charged) : Prop :=
  ∀ inner, Relation.ReflTransGen Inner stream inner → Fits inner

theorem fitsBelow_iff {stream : Charged} :
    FitsBelow stream ↔ Fits stream ∧ ∀ inner, Inner stream inner → FitsBelow inner := by
  constructor
  · intro h
    exact ⟨h stream .refl, fun inner hinner deep hdeep => h deep (.head hinner hdeep)⟩
  · rintro ⟨hfits, hinner⟩ deep hdeep
    rcases hdeep.cases_head with rfl | ⟨inner, hfirst, hrest⟩
    · exact hfits
    · exact hinner inner hfirst deep hrest

theorem chargeStreams_eq_ok {purpose : String} {pending : List Charged} :
    chargeStreams purpose pending = .ok ⟨⟩ ↔ ∀ stream ∈ pending, FitsBelow stream := by
  -- along the loop: a popped stream is replaced by the streams of its groups
  induction pending using chargeStreams.induct purpose with
  | case1 => simp [chargeStreams]
  | case2 tokens ancestors pending error h =>
      have hfits : ¬Fits (tokens, ancestors) := by
        intro hfits
        rw [chargeTokens_eq_ok.mpr (charges_start.mpr ⟨hfits, rfl⟩)] at h
        cases h
      unfold chargeStreams
      split
      · refine iff_of_false nofun fun hall => ?_
        exact hfits (fitsBelow_iff.mp (hall _ List.mem_cons_self)).1
      · next pushed hok => cases hok.symm.trans h
  | case3 tokens ancestors pending pushed h ih =>
      obtain ⟨hfits, rfl⟩ := charges_start.mp (chargeTokens_eq_ok.mp h)
      unfold chargeStreams
      split
      · next error herror => cases herror.symm.trans h
      · next pushed hok =>
          obtain rfl := Except.ok.inj (hok.symm.trans h)
          have hpushed (inner : Charged) :
              inner ∈ (charged ancestors (regions tokens)).reverse ↔
                Inner (tokens, ancestors) inner :=
            List.mem_reverse.trans mem_charged
          rw [ih, List.forall_mem_append, List.forall_mem_cons, fitsBelow_iff]
          simp only [hpushed, hfits, true_and]

/-- A source is accepted exactly when every region of every stream is within the limit, counted
together with the regions that enclose its stream. -/
theorem checkTokenComplexity_eq_ok (purpose : String) (tokens : List TokenTree) :
    checkTokenComplexity purpose tokens = .ok ⟨⟩ ↔
      ∀ stream cost, Relation.ReflTransGen Inner (tokens, 0) (stream, cost) →
        ∀ region ∈ regions stream, cost + region.length ≤ maxTokenPathCost := by
  rw [checkTokenComplexity, chargeStreams_eq_ok, List.forall_mem_singleton]
  exact ⟨fun h stream cost => h (stream, cost), fun h inner => h inner.1 inner.2⟩

end Jig.Policy
