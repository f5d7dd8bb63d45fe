import Jig.Lib.FileLock
import Jig.Lib.TreeMap
import Mathlib.Algebra.Order.BigOperators.Group.Finset
import Mathlib.Data.Fintype.EquivFin

/-!
# Resource leases

`ResourceLease::try_acquire` (`resource_leases.rs`) locks the files of its claims in the order of
their keys, each without waiting, and gives up at the first lock that another attempt holds.
Attempts are interleaved lock by lock here, and an attempt that gave up closes its files at any
later moment. The claims' files and the directory they are in are taken to be as the source checks
them.

At every moment the files that an attempt has open are exactly the ones it has locked, in the modes
of its normalized claims (`Invariant`). An attempt that gave up at a key was stopped by one that is
past that key (`Past`), and stays past it: so the attempt that gave up at the last key of all was
stopped by one that got its lease.
-/

namespace Jig.State

open Lib Std

inductive ResourceClaimMode where
  | shared | exclusive
deriving DecidableEq, Repr

structure ResourceClaim where
  opaqueKey : String
  mode : ResourceClaimMode
deriving DecidableEq, Repr

def normalizedClaims (claims : List ResourceClaim) :
    Except String (ExtTreeMap String ResourceClaimMode) :=
  if claims.length > 64 then .error "resource claim count exceeds its bound"
  else
    claims.foldlM
      (fun normalized claim =>
        if claim.opaqueKey.utf8ByteSize ≠ 64 ||
            !claim.opaqueKey.toList.all fun c => c.isDigit || ('a' ≤ c && c ≤ 'f') then
          .error "resource claim identity is not a canonical SHA-256 key"
        else
          .ok (updateEntry normalized claim.opaqueKey claim.mode fun mode =>
            if claim.mode = .exclusive then .exclusive else mode))
      ∅

/-- The normalized claims have the key of a claim, in its mode or in the stronger one. -/
def Covers (normalized : ExtTreeMap String ResourceClaimMode) (claim : ResourceClaim) : Prop :=
  ∃ mode, normalized[claim.opaqueKey]? = some mode ∧ (claim.mode = .exclusive → mode = .exclusive)

theorem covers_of_normalizedClaims {claims : List ResourceClaim}
    {normalized : ExtTreeMap String ResourceClaimMode}
    (h : normalizedClaims claims = .ok normalized) : ∀ claim ∈ claims, Covers normalized claim := by
  obtain ⟨-, hloop⟩ := ite_error_eq_ok.mp h
  refine foldlM_ok_induction (fun done normalized => ∀ claim ∈ done, Covers normalized claim) hloop
    (by simp) ?_
  intro done claim normalized normalized' _ hdone hstep
  obtain ⟨-, hstep⟩ := ite_error_eq_ok.mp hstep
  obtain rfl := Except.ok.inj hstep
  refine forall_mem_concat (fun other hother => ?_) ?_
  · obtain ⟨mode, hmode, hstrong⟩ := hdone other hother
    unfold Covers
    rw [getElem?_updateEntry]
    split
    · next hkey =>
        -- a later claim of the key can only strengthen its mode
        refine ⟨_, rfl, fun hexclusive => ?_⟩
        rw [hkey, hmode, Option.getD_some, hstrong hexclusive, ite_self]
    · exact ⟨mode, hmode, hstrong⟩
  · unfold Covers
    rw [getElem?_updateEntry, if_pos rfl]
    exact ⟨_, rfl, fun hexclusive => if_pos hexclusive⟩

/-- An attempt: the claims whose files it has locked, and what is left to do. -/
inductive LeaseAttempt where
  | running (held todo : List (String × ResourceClaimMode))
  | acquired (held : List (String × ResourceClaimMode))
  | failed (key : String) (held : List (String × ResourceClaimMode))
deriving DecidableEq, Repr

namespace LeaseAttempt

def held : LeaseAttempt → List (String × ResourceClaimMode)
  | running held _ | acquired held | failed _ held => held

/-- The attempt never asks for this key, or a smaller one, again, and did not give up there. -/
def Past (key : String) : LeaseAttempt → Prop
  | running _ todo => ∀ claim ∈ todo, compare key claim.1 = .lt
  | acquired _ => True
  | failed last _ => compare key last = .lt

/-- The attempt goes through its claims one after the other; after it gave up, it closes the files
it has locked. -/
def Follows (claims : List (String × ResourceClaimMode)) : LeaseAttempt → Prop
  | running held todo => held ++ todo = claims
  | acquired held => held = claims
  | failed key held => ∃ taken mode todo, taken ++ (key, mode) :: todo = claims ∧ held <:+ taken

/-- How many steps an attempt can still take. -/
def weight : LeaseAttempt → Nat
  | running held todo => held.length + 2 * todo.length + 1
  | acquired _ => 0
  | failed _ held => held.length

variable {attempt : LeaseAttempt} {claims : List (String × ResourceClaimMode)}
  (hsorted : claims.Pairwise fun a b => compare a.1 b.1 = .lt) (h : attempt.Follows claims)

include hsorted h

/-- Keys are claimed in their order. -/
theorem Follows.past {claim : String × ResourceClaimMode} (hclaim : claim ∈ attempt.held) :
    attempt.Past claim.1 := by
  cases attempt with
  | running held todo =>
      obtain rfl : held ++ todo = claims := h
      exact (List.pairwise_append.mp hsorted).2.2 claim hclaim
  | acquired held => trivial
  | failed key held =>
      obtain ⟨taken, mode, todo, rfl, hheld⟩ := h
      exact (List.pairwise_append.mp hsorted).2.2 claim (hheld.subset hclaim) (key, mode)
        List.mem_cons_self

theorem Follows.pairwise_held : attempt.held.Pairwise fun a b => compare a.1 b.1 = .lt := by
  cases attempt with
  | running held todo =>
      obtain rfl : held ++ todo = claims := h
      exact (List.pairwise_append.mp hsorted).1
  | acquired held => exact (show held = claims from h) ▸ hsorted
  | failed key held =>
      obtain ⟨taken, mode, todo, rfl, hheld⟩ := h
      exact (List.pairwise_append.mp hsorted).1.sublist hheld.sublist

end LeaseAttempt

/-- The attempts, and the locks of the claim files. -/
structure LeaseSystem (ι : Type) where
  locks : String → FileLock ι
  attempts : ι → LeaseAttempt

namespace LeaseSystem

variable {ι : Type} {normalized : ι → ExtTreeMap String ResourceClaimMode}

def start (normalized : ι → ExtTreeMap String ResourceClaimMode) : LeaseSystem ι where
  locks _ := FileLock.free
  attempts i := .running [] (normalized i).toList

/-- The next lock call of an attempt, or the next file that it closes after it gave up. -/
def step [DecidableEq ι] (s : LeaseSystem ι) (i : ι) : Option (LeaseSystem ι) :=
  match s.attempts i with
  | .running held [] => some { s with attempts := Function.update s.attempts i (.acquired held) }
  | .running held ((key, mode) :: todo) =>
      match (s.locks key).tryLock i (mode = .exclusive) with
      | some lock => some
          { locks := Function.update s.locks key lock
            attempts := Function.update s.attempts i (.running (held ++ [(key, mode)]) todo) }
      | none => some { s with attempts := Function.update s.attempts i (.failed key held) }
  | .acquired _ | .failed _ [] => none
  | .failed last ((key, _) :: held) => some
      { locks := Function.update s.locks key ((s.locks key).release (· ≠ i))
        attempts := Function.update s.attempts i (.failed last held) }

/-! ### The invariant -/

/-- What holds at every moment: the attempts follow their claims, what they hold is what they have
locked, and one that gave up was stopped by one that is past the key. -/
structure Invariant (normalized : ι → ExtTreeMap String ResourceClaimMode)
    (s : LeaseSystem ι) : Prop where
  follows (i : ι) : (s.attempts i).Follows (normalized i).toList
  locked (i : ι) (key : String) (mode : ResourceClaimMode) :
    (i, decide (mode = .exclusive)) ∈ (s.locks key).holders ↔ (key, mode) ∈ (s.attempts i).held
  stopped {i : ι} {key : String} {held : List (String × ResourceClaimMode)} :
    s.attempts i = .failed key held → ∃ j, (s.attempts j).Past key

theorem invariant_start (normalized : ι → ExtTreeMap String ResourceClaimMode) :
    Invariant normalized (start normalized) where
  follows _ := rfl
  locked _ _ _ := iff_of_false List.not_mem_nil List.not_mem_nil
  stopped h := by cases h

/-- An entry of a lock is that of a mode. -/
theorem Invariant.exists_mode {s : LeaseSystem ι} (h : s.Invariant normalized) {key : String}
    {entry : ι × Bool} (hentry : entry ∈ (s.locks key).holders) :
    ∃ mode, (key, mode) ∈ (s.attempts entry.1).held := by
  obtain ⟨i, exclusive⟩ := entry
  cases exclusive with
  | true => exact ⟨.exclusive, (h.locked i key .exclusive).mp hentry⟩
  | false => exact ⟨.shared, (h.locked i key .shared).mp hentry⟩

/-- **Exclusion.** A key that one attempt holds exclusively is held by no other one. -/
theorem Invariant.exclusive {s : LeaseSystem ι} (h : s.Invariant normalized) {i j : ι} {key : String}
    {mode : ResourceClaimMode} (hi : (key, .exclusive) ∈ (s.attempts i).held)
    (hj : (key, mode) ∈ (s.attempts j).held) : i = j := by
  have hi := (h.locked i key .exclusive).mpr hi
  have hj := (h.locked j key mode).mpr hj
  by_contra hne
  have hshared := FileLock.shared_of_two hi hj (fun h => hne (Prod.mk.inj h).1)
  cases hshared.1

variable [DecidableEq ι] {i : ι}

/-- A step of one attempt, which stays past the keys it was past. -/
theorem Invariant.update {s s' : LeaseSystem ι} (h : s.Invariant normalized)
    {attempt : LeaseAttempt} (hattempts : s'.attempts = Function.update s.attempts i attempt)
    (hfollows : attempt.Follows (normalized i).toList)
    (hlocked : ∀ j key mode, (j, decide (mode = .exclusive)) ∈ (s'.locks key).holders ↔
      if j = i then (key, mode) ∈ attempt.held
      else (j, decide (mode = .exclusive)) ∈ (s.locks key).holders)
    (hpast : ∀ key, (s.attempts i).Past key → attempt.Past key)
    (hstopped : ∀ key held, attempt = .failed key held → ∃ j, (s.attempts j).Past key) :
    s'.Invariant normalized := by
  have hself : s'.attempts i = attempt := by rw [hattempts, Function.update_self]
  have hother {j : ι} (hj : j ≠ i) : s'.attempts j = s.attempts j := by
    rw [hattempts, Function.update_of_ne hj]
  have hkeep {j : ι} {key : String} (hj : (s.attempts j).Past key) : (s'.attempts j).Past key := by
    by_cases hji : j = i
    · subst hji
      exact hself ▸ hpast key hj
    · rwa [hother hji]
  constructor
  · intro j
    by_cases hj : j = i
    · rwa [hj, hself]
    · rw [hother hj]
      exact h.follows j
  · intro j key mode
    rw [hlocked]
    by_cases hj : j = i
    · rw [if_pos hj, hj, hself]
    · rw [if_neg hj, hother hj]
      exact h.locked j key mode
  · intro j key held hfailed
    obtain ⟨k, hk⟩ : ∃ k, (s.attempts k).Past key := by
      by_cases hj : j = i
      · rw [hj, hself] at hfailed
        exact hstopped key held hfailed
      · rw [hother hj] at hfailed
        exact h.stopped hfailed
    exact ⟨k, hkeep hk⟩

theorem Invariant.step {s s' : LeaseSystem ι} (h : s.Invariant normalized)
    (hstep : s.step i = some s') :
    s'.Invariant normalized ∧ ∃ attempt, s'.attempts = Function.update s.attempts i attempt ∧
      attempt.weight < (s.attempts i).weight := by
  have hfollows := h.follows i
  have hlocked := h.locked
  have hsorted : (normalized i).toList.Pairwise fun a b => compare a.1 b.1 = .lt :=
    ExtTreeMap.ordered_keys_toList
  unfold LeaseSystem.step at hstep
  split at hstep
  · -- the attempt returns its lease
    next held hi =>
      obtain rfl := Option.some.inj hstep
      rw [hi] at hfollows
      refine ⟨h.update rfl ((List.append_nil held).symm.trans hfollows) ?_ (fun _ _ => trivial)
        nofun, _, rfl, ?_⟩
      · intro j key mode
        grind [LeaseAttempt.held]
      · simp [hi, LeaseAttempt.weight]
  · next held key mode todo hi =>
      rw [hi] at hfollows
      split at hstep
      · -- the lock is taken
        next lock hlock =>
          obtain rfl := Option.some.inj hstep
          refine ⟨h.update rfl ?_ ?_ ?_ nofun, _, rfl, ?_⟩
          · exact (List.append_assoc held [(key, mode)] todo).trans hfollows
          · intro j k mode'
            dsimp only
            rw [Function.update_apply]
            split
            · next hk =>
                subst hk
                rw [FileLock.mem_tryLock hlock]
                cases mode <;> cases mode' <;> grind [LeaseAttempt.held]
            · grind [LeaseAttempt.held]
          · intro k hk claim hclaim
            rw [hi] at hk
            exact hk claim (List.mem_cons_of_mem _ hclaim)
          · simp only [hi, LeaseAttempt.weight, List.length_append, List.length_cons,
              List.length_nil]
            omega
      · -- another attempt holds the lock, and is past the key
        next hlock =>
          obtain rfl := Option.some.inj hstep
          obtain ⟨⟨j, exclusive⟩, hholder⟩ := FileLock.exists_holder hlock
          obtain ⟨held', hheld'⟩ := h.exists_mode hholder
          refine ⟨h.update rfl ⟨held, mode, todo, hfollows, List.suffix_rfl⟩ ?_ ?_ ?_, _, rfl, ?_⟩
          · intro j k mode
            grind [LeaseAttempt.held]
          · intro k hk
            rw [hi] at hk
            exact hk _ List.mem_cons_self
          · rintro _ _ ⟨⟩
            exact ⟨j, (h.follows j).past ExtTreeMap.ordered_keys_toList hheld'⟩
          · simp only [hi, LeaseAttempt.weight, List.length_cons]
            omega
  · cases hstep
  · cases hstep
  · -- a file is closed, and the keys of the other ones differ from its key
    next last key mode held hi =>
      obtain rfl := Option.some.inj hstep
      have hheld := hfollows.pairwise_held hsorted
      rw [hi] at hfollows hheld
      obtain ⟨taken, mode', todo, hclaims, hsuffix⟩ := hfollows
      refine ⟨h.update rfl ⟨taken, mode', todo, hclaims, (List.suffix_cons _ _).trans hsuffix⟩
        ?_ ?_ ?_, _, rfl, ?_⟩
      · intro j k mode
        have hne : ∀ claim ∈ held, key ≠ claim.1 := by
          rintro claim hclaim rfl
          simpa using (List.pairwise_cons.mp hheld).1 claim hclaim
        dsimp only
        rw [Function.update_apply]
        split
        · next hk =>
            subst hk
            rw [FileLock.mem_release]
            grind [LeaseAttempt.held]
        · grind [LeaseAttempt.held]
      · intro k hk
        rwa [hi] at hk
      · rintro _ _ ⟨⟩
        exact h.stopped hi
      · simp [hi, LeaseAttempt.weight]

/-! ### Runs -/

/-- An attempt that can take no step has got its lease or has given up and holds nothing. -/
theorem cases_of_step_eq_none {s : LeaseSystem ι} (h : s.step i = none) :
    (∃ held, s.attempts i = .acquired held) ∨ ∃ key, s.attempts i = .failed key [] := by
  unfold LeaseSystem.step at h
  grind

/-- The attempt that gave up at the last key of all was stopped by one that got its lease. -/
theorem Invariant.exists_acquired [Finite ι] [Nonempty ι] {s : LeaseSystem ι}
    (h : s.Invariant normalized) (hdone : ∀ i, s.step i = none) :
    ∃ i held, s.attempts i = .acquired held := by
  by_contra hall
  simp only [not_exists] at hall
  have hfailed (i : ι) :=
    (cases_of_step_eq_none (hdone i)).resolve_left fun ⟨held, hheld⟩ => hall i held hheld
  choose key hkey using hfailed
  -- later keys come later only finitely often
  have : IsTrans ι fun i j => compare (key j) (key i) = Ordering.lt :=
    ⟨fun _ _ _ hij hjk => TransCmp.lt_trans hjk hij⟩
  have : Std.Irrefl fun i j : ι => compare (key j) (key i) = Ordering.lt := ⟨fun i h => by simp at h⟩
  obtain ⟨i, -, hlast⟩ := (Finite.wellFounded_of_trans_of_irrefl
    fun i j : ι => compare (key j) (key i) = Ordering.lt).has_min Set.univ Set.univ_nonempty
  obtain ⟨j, hj⟩ := h.stopped (hkey i)
  rw [hkey j] at hj
  exact hlast j (Set.mem_univ j) hj

variable [Fintype ι]

theorem Invariant.run {s s' : LeaseSystem ι} (h : s.Invariant normalized) {schedule : List ι}
    (hrun : schedule.foldlM LeaseSystem.step s = some s') :
    s'.Invariant normalized ∧
      schedule.length + ∑ i, (s'.attempts i).weight ≤ ∑ i, (s.attempts i).weight := by
  induction schedule generalizing s with
  | nil =>
      obtain rfl := Option.some.inj hrun
      exact ⟨h, by simp⟩
  | cons i schedule ih =>
      rw [List.foldlM_cons] at hrun
      obtain ⟨next, hnext, hrun⟩ := Option.bind_eq_some_iff.mp hrun
      obtain ⟨hinvariant, attempt, hattempts, hweight⟩ := h.step hnext
      obtain ⟨hinvariant, hlength⟩ := ih hinvariant hrun
      have hlt : ∑ j, (next.attempts j).weight < ∑ j, (s.attempts j).weight := by
        refine Finset.sum_lt_sum (fun j _ => ?_) ⟨i, Finset.mem_univ i, ?_⟩
        · rw [hattempts, Function.update_apply]
          split
          · next hj => exact hj ▸ hweight.le
          · exact le_rfl
        · rwa [hattempts, Function.update_self]
      exact ⟨hinvariant, by rw [List.length_cons]; omega⟩

/-- **Sorted try-locks.** However the lock calls of the attempts are interleaved: a run is finite;
what an attempt holds is exactly what it has locked; an attempt that has its lease holds the key of
each of its claims, exclusively where one of them asks for that; no key is held exclusively by one
attempt and at all by another; and when no attempt can go on, one has got its lease, and those that
have not hold nothing. -/
theorem sorted_try_locks [Nonempty ι] (claims : ι → List ResourceClaim)
    {normalized : ι → ExtTreeMap String ResourceClaimMode}
    (hvalid : ∀ i, normalizedClaims (claims i) = .ok (normalized i)) {schedule : List ι}
    {s : LeaseSystem ι} (hrun : schedule.foldlM step (start normalized) = some s) :
    schedule.length ≤ ∑ i, (2 * (normalized i).size + 1) ∧
      (∀ (i : ι) (key : String) (mode : ResourceClaimMode),
        (i, decide (mode = .exclusive)) ∈ (s.locks key).holders ↔
          (key, mode) ∈ (s.attempts i).held) ∧
      (∀ i held, s.attempts i = .acquired held → held = (normalized i).toList ∧
        ∀ claim ∈ claims i, ∃ mode, (claim.opaqueKey, mode) ∈ held ∧
          (claim.mode = .exclusive → mode = .exclusive)) ∧
      (∀ (i j : ι) (key : String) (mode : ResourceClaimMode),
        (key, .exclusive) ∈ (s.attempts i).held → (key, mode) ∈ (s.attempts j).held → i = j) ∧
      ((∀ i, s.step i = none) → (∃ i held, s.attempts i = .acquired held) ∧
        ∀ i, (∀ held, s.attempts i ≠ .acquired held) → (s.attempts i).held = []) := by
  obtain ⟨hinvariant, hlength⟩ := (invariant_start normalized).run hrun
  refine ⟨?_, hinvariant.locked, ?_, fun i j key mode => hinvariant.exclusive,
    fun hdone => ⟨hinvariant.exists_acquired hdone, ?_⟩⟩
  · refine (Nat.le_of_add_right_le hlength).trans_eq (Finset.sum_congr rfl fun i _ => ?_)
    simp [start, LeaseAttempt.weight]
  · intro i held hacquired
    have hfollows := hinvariant.follows i
    rw [hacquired] at hfollows
    obtain rfl : held = (normalized i).toList := hfollows
    refine ⟨rfl, fun claim hclaim => ?_⟩
    obtain ⟨mode, hmode, hstrong⟩ := covers_of_normalizedClaims (hvalid i) claim hclaim
    exact ⟨mode, ExtTreeMap.mem_toList_iff_getElem?_eq_some.mpr hmode, hstrong⟩
  · intro i hfailed
    obtain ⟨held, hacquired⟩ | ⟨key, hkey⟩ := cases_of_step_eq_none (hdone i)
    · exact absurd hacquired (hfailed held)
    · rw [hkey]
      rfl

/-! ### Two attempts -/

/-- The first attempt claims a key in both modes, and the second one shares it. -/
def sampleClaims (first : Bool) : List ResourceClaim :=
  let a := String.ofList (List.replicate 64 'a')
  let b := String.ofList (List.replicate 64 'b')
  if first then [⟨b, .shared⟩, ⟨a, .shared⟩, ⟨a, .exclusive⟩] else [⟨b, .shared⟩, ⟨a, .shared⟩]

def sampleNormalized (first : Bool) : ExtTreeMap String ResourceClaimMode :=
  match normalizedClaims (sampleClaims first) with
  | .ok normalized => normalized
  | .error _ => ∅

/-- The second attempt gives up while the first one has the lock. -/
theorem sorted_try_locks_conflict :
    ∃ s : LeaseSystem Bool,
      [true, false, true, true].foldlM step (start sampleNormalized) = some s ∧
      (s.attempts true).held = [(String.ofList (List.replicate 64 'a'), .exclusive),
        (String.ofList (List.replicate 64 'b'), .shared)] ∧
      ∃ i held, s.attempts i = .acquired held := by
  have hvalid : ∀ first, normalizedClaims (sampleClaims first) = .ok (sampleNormalized first) := by
    intro first
    cases first <;> rfl
  have hrun : ([true, false, true, true].foldlM step (start sampleNormalized)).any (fun s =>
      (s.step true).isNone && (s.step false).isNone &&
        (s.attempts true).held = [(String.ofList (List.replicate 64 'a'), .exclusive),
          (String.ofList (List.replicate 64 'b'), .shared)]) = true := by decide +kernel
  obtain ⟨s, hrun, hdone⟩ := (Option.any_eq_true _ _).mp hrun
  simp only [Bool.and_eq_true, Option.isNone_iff_eq_none, decide_eq_true_eq] at hdone
  obtain ⟨⟨htrue, hfalse⟩, hheld⟩ := hdone
  have hnone : ∀ i, s.step i = none := Bool.forall_bool.mpr ⟨hfalse, htrue⟩
  obtain ⟨-, -, -, -, hend⟩ := sorted_try_locks sampleClaims hvalid hrun
  exact ⟨s, hrun, hheld, (hend hnone).1⟩

end LeaseSystem

end Jig.State
