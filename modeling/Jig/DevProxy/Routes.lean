import Jig.DevProxy.Host
import Jig.Lib.Locked

/-!
# The routes file of the development proxy

`StateStore` keeps the routes in one file that every process reads and replaces under a lock. An
alias has no owner and is always live; a process route is live while the process that published it
runs, which is told by its PID together with the start token of that process.

* `addRouteToPath`, `addRouteToPathVerified`, `removeProcessRouteIfOwned`, `prune`: what is done to
  the file under the lock.
* `Operation.run`: the methods of the store, with the guards they have before the lock is taken.

A missing file and an empty one are read as no routes, so the file is the list of its routes.
-/

namespace Jig.DevProxy

open Lib

/-! ### Routes -/

inductive RouteMode where
  | process
  | alias
deriving DecidableEq

structure Route (libraries : ProxyLibraries) where
  hostname : RouteHostname
  targetHost : TargetHost libraries
  targetPort : Nat
  ownerPid : Option Nat
  ownerStartToken : Option String
  mode : RouteMode
  createdAtMs : Nat
deriving DecidableEq

/-- The identity of a process: its PID and its start token. -/
abbrev Owner := Nat × String

structure ProcessRouteOwnership where
  hostname : RouteHostname
  ownerPid : Nat
  ownerStartToken : String

variable {libraries : ProxyLibraries}

/-- The identity that a process route names. -/
def Route.owner? (route : Route libraries) : Option Owner :=
  match route.mode, route.ownerPid, route.ownerStartToken with
  | .process, some pid, some token => some (pid, token)
  | _, _, _ => none

variable {route : Route libraries}

theorem Route.mode_of_owner? {owner : Owner} (h : route.owner? = some owner) :
    route.mode = .process := by
  unfold Route.owner? at h
  split at h
  · assumption
  · cases h

/-- The identity that cleans up. -/
def ProcessRouteOwnership.owner (ownership : ProcessRouteOwnership) : Owner :=
  (ownership.ownerPid, ownership.ownerStartToken)

def ProcessRouteOwnership.matches (ownership : ProcessRouteOwnership) (route : Route libraries) :
    Bool :=
  route.mode == .process && route.hostname == ownership.hostname &&
    route.ownerPid == some ownership.ownerPid &&
    route.ownerStartToken == some ownership.ownerStartToken

theorem ProcessRouteOwnership.matches_iff {ownership : ProcessRouteOwnership} :
    ownership.matches route = true ↔
      route.hostname = ownership.hostname ∧ route.owner? = some ownership.owner := by
  obtain ⟨hostname, _, _, pid, token, mode, _⟩ := route
  cases mode <;> cases pid <;> cases token <;>
    simp [ProcessRouteOwnership.matches, Route.owner?, ProcessRouteOwnership.owner, and_assoc]

/-! ### Liveness -/

inductive PidObservation where
  | alive
  | absent
  | uncertain
deriving DecidableEq

/-- What the system answers about its processes at one moment. -/
structure ProcessTable where
  observePid : Nat → PidObservation
  processStartToken : Nat → Option String

def pidMatchesOwner (libraries : ProxyLibraries) (table : ProcessTable) (pid : Nat)
    (expectedStartToken : Option String) : Bool :=
  if table.observePid pid = .absent then
    false
  else
    match expectedStartToken with
    | none => false
    | some expected =>
        if !libraries.processStartTokensSupported then
          false
        else
          (table.processStartToken pid).any (· == expected)

def routeIsAlive (table : ProcessTable) (route : Route libraries) : Bool :=
  match route.mode with
  | .alias => true
  | .process => route.ownerPid.any (pidMatchesOwner libraries table · route.ownerStartToken)

/-! ### Validation -/

def validateRoute (route : Route libraries) : Except String Unit := do
  validateRoutedHostname route.hostname.value
  validateRouteTargetHost libraries route.targetHost.value
  if route.targetPort = 0 then
    .error ("Jig proxy route '" ++ route.hostname.value ++ "' has target port 0")
  else
    pure ()

def validateRouteForWrite (route : Route libraries) : Except String Unit := do
  validateRoute route
  match route.mode with
  | .alias => pure ()
  | .process =>
      if route.ownerPid.isNone || route.ownerStartToken.isNone then
        .error ("Process route '" ++ route.hostname.value ++
          "' must include owner PID and start token before it can be persisted")
      else
        pure ()

def validateRouteForRead (route : Route libraries) : Except String Unit := do
  validateRouteForWrite route
  if route.mode = .process ∧ !libraries.processStartTokensSupported then
    .error ("Process route '" ++ route.hostname.value ++ "' cannot be trusted on this platform " ++
      "because process start-token verification is unavailable")
  else
    pure ()

theorem validateRouteForRead_eq_ok :
    validateRouteForRead route = .ok () ↔ validateRouteForWrite route = .ok () ∧
      (route.mode = .process → libraries.processStartTokensSupported = true) := by
  unfold validateRouteForRead
  rw [then_eq_ok, ite_error_eq_ok]
  simp [pure, Except.pure]

/-- A process route that may be written names the process that owns it. -/
theorem exists_owner_of_validateRouteForWrite (h : validateRouteForWrite route = .ok ())
    (hmode : route.mode = .process) :
    ∃ owner, route.owner? = some owner := by
  unfold validateRouteForWrite at h
  rw [then_eq_ok, hmode] at h
  obtain ⟨-, h⟩ := h
  rw [ite_error_eq_ok] at h
  obtain ⟨hpresent, -⟩ := h
  simp only [Bool.or_eq_true, Option.isNone_iff_eq_none, not_or] at hpresent
  obtain ⟨pid, hpid⟩ := Option.ne_none_iff_exists'.mp hpresent.1
  obtain ⟨token, htoken⟩ := Option.ne_none_iff_exists'.mp hpresent.2
  exact ⟨(pid, token), by simp [Route.owner?, hmode, hpid, htoken]⟩

/-! ### The file under the lock -/

/-- The bytes of the document that a list of routes is written as. -/
abbrev DocumentLen (libraries : ProxyLibraries) := List (Route libraries) → Nat

def maxRoutesFileBytes : Nat := 4 * 1024 * 1024

/-- What runs under the route lock: a failure keeps what was last written. -/
abbrev RouteFile (libraries : ProxyLibraries) := Locked (List (Route libraries)) String

variable (len : DocumentLen libraries)

def readRoutesFromPath :
    RouteFile libraries (List (Route libraries)) := do
  let routes ← get
  (if maxRoutesFileBytes < len routes then
    throw ("Jig proxy routes file is " ++ toString (len routes) ++ " bytes, above the " ++
      toString maxRoutesFileBytes ++ " byte limit")
  else
    pure ())
  Locked.lift (routes.forM validateRouteForRead)
  return routes

/-- How a write of the file goes. `replace_file` renames the new file and then syncs the directory,
so that a write may also fail when the file has been replaced. -/
inductive WriteOutcome where
  | written
  | failed (error : String)
  | unsynced (error : String)
deriving DecidableEq

def writeRoutesToPath (outcome : WriteOutcome) (routes : List (Route libraries)) :
    RouteFile libraries Unit :=
  match outcome with
  | .written => set routes
  | .failed error => throw error
  | .unsynced error => do
      set routes
      throw error

variable (table : ProcessTable) (routes : List (Route libraries))

def liveProcessRouteForHostname (hostname : RouteHostname) : Option (Route libraries) :=
  routes.find? fun existing =>
    existing.hostname == hostname && existing.mode == .process && routeIsAlive table existing

def ensureNoLiveProcessRouteReplacement (route : Route libraries) : Except String Unit :=
  match liveProcessRouteForHostname table routes route.hostname with
  | some existing =>
      let owner := (existing.ownerPid.map toString).getD "<unknown>"
      .error ("Proxy route '" ++ existing.hostname.value ++
        "' would replace a live process route owned by PID " ++ owner ++ " and targeting " ++
        existing.targetHost.value ++ ":" ++ toString existing.targetPort ++
        ". Stop that app process, then run `jig proxy prune`, or change one of the duplicate " ++
        "route hostnames before retrying.")
  | none => pure ()

/-- The file with a route added: what had its hostname is replaced and what is not live is dropped.
-/
def withRoute (route : Route libraries) : List (Route libraries) :=
  ((routes.filter fun existing => existing.hostname != route.hostname).filter
    (routeIsAlive table)) ++ [route]

/-- What an operation is answered: the processes, when it looks for a live route and when it drops
the routes that are not, and the outcomes of its writes. -/
structure RouteEnv where
  ensuring : ProcessTable
  retaining : ProcessTable
  write : WriteOutcome
  rollback : WriteOutcome

variable (env : RouteEnv)

def addRouteToPath (route : Route libraries) :
    RouteFile libraries Unit := do
  Locked.lift (validateRouteForWrite route)
  let routes ← readRoutesFromPath len
  Locked.lift (ensureNoLiveProcessRouteReplacement env.ensuring routes route)
  writeRoutesToPath env.write (withRoute env.retaining routes route)

structure Verification where
  before : Except String Unit
  after : Except String Unit

def addRouteToPathVerified (verify : Verification) (route : Route libraries) :
    RouteFile libraries Unit := do
  Locked.lift (validateRouteForWrite route)
  let routes ← readRoutesFromPath len
  Locked.lift (ensureNoLiveProcessRouteReplacement env.ensuring routes route)
  Locked.lift verify.before
  let rollbackRoutes := routes
  writeRoutesToPath env.write (withRoute env.retaining routes route)
  match verify.after with
  | .ok () => pure ()
  | .error error =>
      tryCatch (writeRoutesToPath env.rollback rollbackRoutes) fun cleanupError =>
        throw ("verification failed for route '" ++ route.hostname.value ++
          "', and rollback also failed: " ++ cleanupError)
      throw error

/-- `remove_process_route_if_owned_cancelable_until`, once it holds the lock. -/
def removeProcessRouteIfOwned (ownership : ProcessRouteOwnership) :
    RouteFile libraries Unit := do
  let routes ← readRoutesFromPath len
  let retained := routes.filter fun existing => !ownership.matches existing
  if retained.length = routes.length then
    pure ()
  else
    writeRoutesToPath env.write retained

def prune :
    RouteFile libraries (List (Route libraries)) := do
  let routes ← readRoutesFromPath len
  let pruned := routes.filter (routeIsAlive env.retaining)
  (if pruned.length ≠ routes.length then writeRoutesToPath env.write pruned else pure ())
  return pruned

/-! ### The methods of the store -/

/-- What a process asks of the store. -/
inductive Operation (libraries : ProxyLibraries) where
  | addAliasRoute (route : Route libraries)
  | addVerifiedRoute (route : Route libraries) (verify : Verification)
  | removeProcessRouteIfOwned (ownership : ProcessRouteOwnership)
  | prune

def Operation.run (len : DocumentLen libraries) (env : RouteEnv) :
    Operation libraries → RouteFile libraries Unit
  | .addAliasRoute route =>
      if route.mode ≠ .alias then
        throw "add_alias_route requires RouteMode::Alias"
      else
        addRouteToPath len env route
  | .addVerifiedRoute route verify =>
      if route.mode = .process ∧ !libraries.processStartTokensSupported then
        throw ("Process routes require process start-token verification on this platform. Use " ++
          "`scripts/jig proxy alias` for an already-running app, or run with --no-proxy.")
      else
        addRouteToPathVerified len env verify route
  | .removeProcessRouteIfOwned ownership =>
      DevProxy.removeProcessRouteIfOwned len env ownership
  | .prune => do
      let _ ← DevProxy.prune len env
      pure ()

end Jig.DevProxy
