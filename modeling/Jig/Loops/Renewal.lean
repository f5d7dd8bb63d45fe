import Jig.Loops.Occurrence

/-!
# Renewal of a lease

`run_with_wait` of `jig-loops`, `renewal.rs`: the worker that keeps a lease alive. It waits, renews,
and after a failure that may pass it tries again, until one interval is left of the lease; it then
sets the flag that tells the holder to stop.

The world that the worker runs in answers its waits and its renewals, and time passes only in these.
Times are whole milliseconds. `holder_told_in_time` is what the worker guarantees in every world
that keeps its deadlines.
-/

namespace Jig.Loops

open Jig.Lib Std

/-! ## The code -/

inductive RenewalAttemptError (ε : Type) where
  | terminal (error : ε)
  | retryable (error : ε)

inductive WaitOutcome where
  | stopped
  | disconnected
  | timeout
deriving DecidableEq

/-- The callbacks of `run_with_wait`. A deadline is the time on the clock of `now`. -/
structure RenewalEnv (σ ε : Type) where
  now : σ → Nat
  waitForStop : Nat → σ → WaitOutcome × σ
  renew : Nat → σ → Except (RenewalAttemptError ε) Nat × σ

def loopStateLockTimeout : Nat := 30 * 1000

def renewalInterval (ttlSeconds : Nat) : Nat :=
  max (min (ttlSeconds * 1000) (2 ^ 64 - 1) / 3) 1

def cancellationWindowMs (interval : Nat) : Nat :=
  max (min interval (2 ^ 64 - 1)) 1

def renewalLockWait (now expiresAtMs interval : Nat) : Nat :=
  min (expiresAtMs - now - cancellationWindowMs interval) loopStateLockTimeout

def retryDelay (now expiresAtMs interval : Nat) : Option Nat :=
  let window := cancellationWindowMs interval
  let remaining := expiresAtMs - now
  if remaining < window then
    none
  else
    let budget := remaining - window
    if budget = 0 then none else some (min (max (window / 4) 1) budget)

def failureWindowReached (now expiresAtMs interval : Nat) : Bool :=
  expiresAtMs - now ≤ cancellationWindowMs interval

structure RenewalState (σ ε : Type) where
  world : σ
  expiresAtMs : Nat
  wait : Nat
  pendingError : Option ε

/-- What the loop returns, with the flag and the variables at that time. -/
structure RenewalExit (σ ε : Type) where
  world : σ
  expiresAtMs : Nat
  result : Except ε Unit
  renewalFailed : Bool
  /-- The renewal said that the lease is lost. -/
  byTerminal : Bool := false

variable {σ ε : Type} (env : RenewalEnv σ ε) (interval : Nat)

/-- What a round does when its wait is over and the holder goes on. -/
def renewalAttempt (state : RenewalState σ ε) (world : σ) :
    RenewalState σ ε ⊕ RenewalExit σ ε :=
  let now := env.now world
  match env.renew (now + renewalLockWait now state.expiresAtMs interval) world with
  | (.ok renewed, world) =>
      .inl { world, expiresAtMs := renewed, wait := interval, pendingError := none }
  | (.error (.terminal error), world) =>
      .inr { world, expiresAtMs := state.expiresAtMs, result := .error error, renewalFailed := true
             byTerminal := true }
  | (.error (.retryable error), world) =>
      match retryDelay (env.now world) state.expiresAtMs interval with
      | none =>
          .inr { world, expiresAtMs := state.expiresAtMs, result := .error error
                 renewalFailed := true }
      | some delay =>
          .inl { world, expiresAtMs := state.expiresAtMs, wait := delay
                 pendingError := some (state.pendingError.getD error) }

def renewalRound (state : RenewalState σ ε) : RenewalState σ ε ⊕ RenewalExit σ ε :=
  match env.waitForStop state.wait state.world with
  | (.timeout, world) =>
      match state.pendingError with
      | some error =>
          if failureWindowReached (env.now world) state.expiresAtMs interval then
            .inr { world, expiresAtMs := state.expiresAtMs, result := .error error
                   renewalFailed := true }
          else
            renewalAttempt env interval state world
      | none => renewalAttempt env interval state world
  | (_, world) =>
      .inr { world, expiresAtMs := state.expiresAtMs, result := .ok ()
             renewalFailed := state.expiresAtMs ≤ env.now world }

def renewalRounds : Nat → RenewalState σ ε → Option (RenewalExit σ ε)
  | 0, _ => none
  | rounds + 1, state =>
      match renewalRound env interval state with
      | .inl state => renewalRounds rounds state
      | .inr exit => some exit

/-- The variables before the first round. -/
def renewalStart (expiresAtMs : Nat) (world : σ) : RenewalState σ ε where
  world := world
  expiresAtMs := expiresAtMs
  wait := interval
  pendingError := none

def runWithWait (expiresAtMs rounds : Nat) (world : σ) : Option (RenewalExit σ ε) :=
  renewalRounds env interval rounds (renewalStart interval expiresAtMs world)

/-! ### The renewal of a stored lease -/

structure LeaseRecord where
  key : String
  owner : String
  acquiredAtMs : Nat
  expiresAtMs : Nat
deriving DecidableEq

/-- `renew_with_lock_deadline`, under the lock. Each error is a `RenewalOwnershipLost`. -/
def renewLease (key owner : String) (ttlSeconds now : Nat)
    (leases : ExtTreeMap String LeaseRecord) :
    Except String (ExtTreeMap String LeaseRecord × LeaseRecord) :=
  match leases[key]? with
  | none => .error ("Loop lease is no longer held: " ++ key)
  | some lease =>
      if lease.owner ≠ owner then
        .error ("Loop lease '" ++ key ++ "' is owned by another worker")
      else if lease.expiresAtMs ≤ now then
        .error ("Loop lease expired before renewal: " ++ key)
      else
        let lease := { lease with expiresAtMs := expiry now ttlSeconds }
        .ok (leases.insert key lease, lease)

/-- A lease that is renewed lasts for three intervals of the worker. -/
theorem renewLease_expiry {key owner : String} {ttlSeconds now : Nat}
    {leases leases' : ExtTreeMap String LeaseRecord} {lease : LeaseRecord}
    (hpos : 1 ≤ ttlSeconds) (hu64 : now + ttlSeconds * 1000 < 2 ^ 64)
    (h : renewLease key owner ttlSeconds now leases = .ok (leases', lease)) :
    now + 3 * renewalInterval ttlSeconds ≤ lease.expiresAtMs := by
  unfold renewLease at h
  split at h
  · cases h
  · rw [ite_error_eq_ok, ite_error_eq_ok] at h
    obtain ⟨-, -, h⟩ := h
    obtain ⟨-, rfl⟩ := Prod.mk.inj (Except.ok.inj h)
    dsimp only [expiry, renewalInterval]
    omega

/-! ## Worlds that keep their deadlines -/

/-- A wait that is not cut short takes the time it was asked for, a renewal ends by its deadline,
and a lease that was renewed lasts for two more intervals. -/
structure Punctual : Prop where
  timeout : ∀ {wait : Nat} {world world' : σ}, env.waitForStop wait world = (.timeout, world') →
    env.now world' = env.now world + wait
  renewal : ∀ (deadline : Nat) (world : σ), env.now world ≤ deadline →
    env.now world ≤ env.now (env.renew deadline world).2 ∧
      env.now (env.renew deadline world).2 ≤ deadline
  renewed : ∀ {deadline expiresAtMs : Nat} {world world' : σ},
    env.renew deadline world = (.ok expiresAtMs, world') →
      env.now world' + 2 * interval ≤ expiresAtMs

/-- The wait of the next round ends when an interval of the lease is left, or earlier. -/
structure RenewalState.InTime (state : RenewalState σ ε) : Prop where
  waits : 0 < state.wait
  ends : env.now state.world + state.wait + interval ≤ state.expiresAtMs

section Rounds

variable {env interval} {state state' : RenewalState σ ε} {exit : RenewalExit σ ε} {world : σ}

/-- What a round may end in. -/
structure InTimeExit (env : RenewalEnv σ ε) (interval : Nat) (exit : RenewalExit σ ε) : Prop where
  flagged : exit.result ≠ .ok () → exit.renewalFailed = true
  early : exit.result ≠ .ok () → exit.byTerminal = false →
    env.now exit.world + interval ≤ exit.expiresAtMs

variable (env interval) in
def RenewalStep (state state' : RenewalState σ ε) : Prop :=
  renewalRound env interval state = .inl state'

section

variable (hpos : 1 ≤ interval) (hlt : interval < 2 ^ 64)

include hpos hlt

theorem cancellationWindowMs_eq : cancellationWindowMs interval = interval := by
  unfold cancellationWindowMs
  omega

/-- A retry waits for some time, and ends in time. -/
theorem retryDelay_eq_some {now expiresAtMs delay : Nat}
    (h : retryDelay now expiresAtMs interval = some delay) :
    0 < delay ∧ now + delay + interval ≤ expiresAtMs := by
  unfold retryDelay at h
  rw [cancellationWindowMs_eq hpos hlt] at h
  dsimp only at h
  split at h
  · cases h
  · split at h
    · cases h
    · obtain rfl := Option.some.inj h
      omega

variable (hpunctual : Punctual env interval)

include hpunctual

/-- What an attempt leads to, from a time at which an interval of the lease is left. -/
theorem renewalAttempt_inTime (hnow : env.now world + interval ≤ state.expiresAtMs) :
    (∀ state', renewalAttempt env interval state world = .inl state' →
      state'.InTime env interval) ∧
      ∀ exit, renewalAttempt env interval state world = .inr exit → InTimeExit env interval exit := by
  have hdeadline := hpunctual.renewal _ world (Nat.le_add_right (env.now world)
    (renewalLockWait (env.now world) state.expiresAtMs interval))
  have hbudget : env.now world + renewalLockWait (env.now world) state.expiresAtMs interval +
      interval ≤ state.expiresAtMs := by
    unfold renewalLockWait
    rw [cancellationWindowMs_eq hpos hlt]
    omega
  unfold renewalAttempt
  dsimp only
  cases hrenew : env.renew (env.now world + renewalLockWait (env.now world) state.expiresAtMs
      interval) world with
  | mk outcome world' =>
      rw [hrenew] at hdeadline
      dsimp only at hdeadline
      rcases outcome with (error | error) | renewed
      · refine ⟨by simp, ?_⟩
        rintro exit ⟨⟩
        exact ⟨fun _ => rfl, fun _ hterminal => by cases hterminal⟩
      · dsimp only
        cases hdelay : retryDelay (env.now world') state.expiresAtMs interval with
        | none =>
            refine ⟨by simp, ?_⟩
            rintro exit ⟨⟩
            exact ⟨fun _ => rfl, fun _ _ => by dsimp only; omega⟩
        | some delay =>
            refine ⟨?_, by simp⟩
            rintro state' ⟨⟩
            exact ⟨(retryDelay_eq_some hpos hlt hdelay).1, (retryDelay_eq_some hpos hlt hdelay).2⟩
      · refine ⟨?_, by simp⟩
        rintro state' ⟨⟩
        have := hpunctual.renewed hrenew
        exact ⟨hpos, by dsimp only; omega⟩

/-- **One round** keeps the next wait in time, and ends in time. -/
theorem renewalRound_inTime (h : state.InTime env interval) :
    (∀ state', renewalRound env interval state = .inl state' → state'.InTime env interval) ∧
      ∀ exit, renewalRound env interval state = .inr exit → InTimeExit env interval exit := by
  unfold renewalRound
  split
  · next world hwait =>
      have hnow : env.now world + interval ≤ state.expiresAtMs := by
        rw [hpunctual.timeout hwait]
        exact h.ends
      have hattempt := renewalAttempt_inTime hpos hlt hpunctual hnow
      split
      · split
        · refine ⟨by simp, ?_⟩
          rintro exit ⟨⟩
          exact ⟨fun _ => rfl, fun _ _ => hnow⟩
        · exact hattempt
      · exact hattempt
  · refine ⟨by simp, ?_⟩
    rintro exit ⟨⟩
    exact ⟨fun hresult => absurd rfl hresult, fun hresult => absurd rfl hresult⟩

/-- **All rounds.** -/
theorem inTime_of_steps (h : state.InTime env interval)
    (hsteps : Relation.ReflTransGen (RenewalStep env interval) state state') :
    state'.InTime env interval := by
  induction hsteps with
  | refl => exact h
  | tail _ hstep ih => exact (renewalRound_inTime hpos hlt hpunctual ih).1 _ hstep

theorem inTimeExit_of_rounds (h : state.InTime env interval) {rounds : Nat}
    (hexit : renewalRounds env interval rounds state = some exit) : InTimeExit env interval exit := by
  induction rounds generalizing state with
  | zero => cases hexit
  | succ rounds ih =>
      unfold renewalRounds at hexit
      have hround := renewalRound_inTime hpos hlt hpunctual h
      cases hcase : renewalRound env interval state with
      | inl state' =>
          rw [hcase] at hexit
          exact ih (hround.1 state' hcase) hexit
      | inr found =>
          rw [hcase] at hexit
          obtain rfl := Option.some.inj hexit
          exact hround.2 _ hcase

end

/-! ## Renewals that always fail -/

variable (env) in
/-- Every renewal fails in a way that may pass. -/
def AlwaysRetryable : Prop :=
  ∀ deadline world, ∃ error, (env.renew deadline world).1 = .error (.retryable error)

/-- Such a round takes some time and leaves the lease as it is. -/
theorem renewalRound_retryable (hpunctual : Punctual env interval) (hretry : AlwaysRetryable env)
    (h : state.InTime env interval) (hround : renewalRound env interval state = .inl state') :
    state'.expiresAtMs = state.expiresAtMs ∧ env.now state.world < env.now state'.world := by
  have hattempt : ∀ world, env.now state.world < env.now world →
      renewalAttempt env interval state world = .inl state' →
      state'.expiresAtMs = state.expiresAtMs ∧ env.now state.world < env.now state'.world := by
    intro world hlater hattempt
    unfold renewalAttempt at hattempt
    have hdeadline := (hpunctual.renewal _ world (Nat.le_add_right (env.now world)
      (renewalLockWait (env.now world) state.expiresAtMs interval))).1
    obtain ⟨error, hrenew⟩ := hretry (env.now world +
      renewalLockWait (env.now world) state.expiresAtMs interval) world
    dsimp only at hattempt
    generalize env.renew _ world = answer at hattempt hdeadline hrenew
    obtain ⟨outcome, world'⟩ := answer
    obtain rfl : outcome = .error (.retryable error) := hrenew
    dsimp only at hattempt
    split at hattempt
    · cases hattempt
    · obtain rfl := Sum.inl.inj hattempt
      exact ⟨rfl, hlater.trans_le hdeadline⟩
  unfold renewalRound at hround
  split at hround
  · next world hwait =>
      have hlater : env.now state.world < env.now world := by
        rw [hpunctual.timeout hwait]
        exact Nat.lt_add_of_pos_right h.waits
      split at hround
      · split at hround
        · cases hround
        · exact hattempt world hlater hround
      · exact hattempt world hlater hround
  · cases hround

/-- **Such a loop ends**, since the lease does. -/
theorem renewalRounds_ends (hpos : 1 ≤ interval) (hlt : interval < 2 ^ 64)
    (hpunctual : Punctual env interval) (hretry : AlwaysRetryable env)
    (h : state.InTime env interval) :
    ∃ rounds exit, renewalRounds env interval rounds state = some exit := by
  induction hleft : state.expiresAtMs - env.now state.world using Nat.strongRecOn
    generalizing state with
  | _ left ih =>
      cases hround : renewalRound env interval state with
      | inr exit => exact ⟨1, exit, by rw [renewalRounds, hround]⟩
      | inl state' =>
          have hnext := (renewalRound_inTime hpos hlt hpunctual h).1 state' hround
          obtain ⟨hexpires, hlater⟩ := renewalRound_retryable hpunctual hretry h hround
          have hends := h.ends
          have hends' := hnext.ends
          obtain ⟨rounds, exit, hexit⟩ := ih _ (by omega) hnext rfl
          exact ⟨rounds + 1, exit, by rw [renewalRounds, hround]; exact hexit⟩

end Rounds

/-- **The holder is told in time.** No wait ends when less than an interval is left of the lease. An
error that does not mean the loss of the lease is returned with the flag set while an interval is
left of the lease that was renewed last. And a worker whose renewals all fail does return. -/
theorem holder_told_in_time (env : RenewalEnv σ ε) (interval : Nat) (hpos : 1 ≤ interval)
    (hpunctual : Punctual env interval) (world : σ) (expiresAtMs : Nat)
    (hu64 : expiresAtMs < 2 ^ 64) (hahead : env.now world + 2 * interval ≤ expiresAtMs) :
    (∀ state, Relation.ReflTransGen (RenewalStep env interval)
        (renewalStart interval expiresAtMs world) state →
      env.now state.world + state.wait + interval ≤ state.expiresAtMs) ∧
    (∀ rounds exit error, runWithWait env interval expiresAtMs rounds world = some exit →
      exit.result = .error error → exit.renewalFailed = true ∧
        (exit.byTerminal = false → env.now exit.world + interval ≤ exit.expiresAtMs)) ∧
    (AlwaysRetryable env →
      ∃ rounds exit, runWithWait env interval expiresAtMs rounds world = some exit) := by
  have hlt : interval < 2 ^ 64 := by omega
  have hstart : (renewalStart interval expiresAtMs world : RenewalState σ ε).InTime env interval :=
    ⟨hpos, by dsimp only [renewalStart]; omega⟩
  refine ⟨?_, ?_, ?_⟩
  · intro state hsteps
    exact (inTime_of_steps hpos hlt hpunctual hstart hsteps).ends
  · intro rounds exit error hexit herror
    have hne : exit.result ≠ .ok () := by
      rw [herror]
      exact fun h => by cases h
    have hintime := inTimeExit_of_rounds hpos hlt hpunctual hstart hexit
    exact ⟨hintime.flagged hne, hintime.early hne⟩
  · exact fun hretry => renewalRounds_ends hpos hlt hpunctual hretry hstart

namespace SampleRenewal

/-- A clock and the outcomes of the renewals to come: how long each one waits for the lock, and for
how long it renews the lease where it gets the lock. -/
structure World where
  now : Nat
  renewals : List (Nat × Option Nat)

/-- Waits are never cut short, and without an outcome the lock is never free. -/
def clockEnv (interval : Nat) : RenewalEnv World String where
  now := World.now
  waitForStop wait world := (.timeout, { world with now := world.now + wait })
  renew deadline world :=
    match world.renewals with
    | (delay, some extra) :: renewals =>
        let now := max world.now (min (world.now + delay) deadline)
        (.ok (now + 2 * interval + extra), { now, renewals })
    | (_, none) :: renewals =>
        (.error (.retryable "timed out"), { now := max world.now deadline, renewals })
    | [] =>
        (.error (.retryable "timed out"), { world with now := max world.now deadline })

theorem punctual (interval : Nat) : Punctual (clockEnv interval) interval where
  timeout := by
    intro wait world world' h
    obtain rfl := (Prod.mk.inj h).2
    rfl
  renewal := by
    intro deadline world hdeadline
    simp only [clockEnv] at hdeadline ⊢
    split <;> dsimp only <;> omega
  renewed := by
    intro deadline expiresAtMs world world' h
    simp only [clockEnv] at h
    split at h
    · obtain ⟨hexpires, rfl⟩ := Prod.mk.inj h
      obtain rfl := Except.ok.inj hexpires
      exact Nat.le_add_right _ _
    · cases h
    · cases h

def firstWorld : World := { now := 0, renewals := [(50, some 100)] }

theorem holder_told_in_time_of_sample :
    (runWithWait (clockEnv 300) 300 1000 3 firstWorld).map
        (fun exit => (exit.renewalFailed, exit.world.now, exit.expiresAtMs)) =
          some (true, 750, 1050) ∧
      ∀ rounds exit error, runWithWait (clockEnv 300) 300 1000 rounds firstWorld = some exit →
        exit.result = .error error → exit.renewalFailed = true := by
  refine ⟨by decide, ?_⟩
  intro rounds exit error hexit herror
  exact ((holder_told_in_time (clockEnv 300) 300 (by decide) (punctual 300) firstWorld 1000 (by decide)
    (by decide)).2.1 rounds exit error hexit herror).1

end SampleRenewal

end Jig.Loops
