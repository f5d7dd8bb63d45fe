import Jig.DevProxy.Routes

/-!
# Live process routes are never displaced

A run is a list of operations, each of which holds the route lock from its start to its end. What
the system answers about processes in between is true of some moment in between, so a process that
runs when the operation starts and when it ends is seen to run: an identity that has gone never
returns.

`Operation.run_effect` says once what an operation can do to the file. Everything else is read off
it: the file stays well formed (`Effect.wellFormed`) and each step keeps live routes
(`Effect.keepsRoutes`).
-/

namespace Jig.DevProxy

open Lib

variable {libraries : ProxyLibraries} {len : DocumentLen libraries} {route : Route libraries}

/-! ### What an operation does -/

inductive Effect (env : RouteEnv) (file : List (Route libraries)) :
    Operation libraries → List (Route libraries) → Prop
  | nothing (operation : Operation libraries) : Effect env file operation file
  | addAlias (route : Route libraries) (hread : validateRouteForRead route = .ok ())
      (hfree : liveProcessRouteForHostname env.ensuring file route.hostname = none) :
      Effect env file (.addAliasRoute route) (withRoute env.retaining file route)
  | addVerified (route : Route libraries) (verify : Verification)
      (hread : validateRouteForRead route = .ok ())
      (hfree : liveProcessRouteForHostname env.ensuring file route.hostname = none)
      (hverified : verify = ⟨.ok (), .ok ()⟩ ∨ ∃ error, env.write = .unsynced error) :
      Effect env file (.addVerifiedRoute route verify) (withRoute env.retaining file route)
  | remove (ownership : ProcessRouteOwnership) :
      Effect env file (.removeProcessRouteIfOwned ownership)
        (file.filter fun route => !ownership.matches route)
  | prune : Effect env file .prune (file.filter (routeIsAlive env.retaining))

theorem ends_readRoutesFromPath {file : List (Route libraries)}
    {post : List (Route libraries) → List (Route libraries) → Prop}
    {fails : String → List (Route libraries) → Prop} (hpost : post file file)
    (hfails : ∀ e, fails e file) : (readRoutesFromPath len).Ends file post fails := by
  simp [readRoutesFromPath, Locked.ends_ite, hpost, hfails]

theorem ends_writeRoutesToPath {outcome : WriteOutcome} {routes file : List (Route libraries)}
    {post : Unit → List (Route libraries) → Prop} {fails : String → List (Route libraries) → Prop}
    (hpost : outcome = .written → post () routes) (hfails : ∀ e, fails e file)
    (hunsynced : ∀ e, outcome = .unsynced e → fails e routes) :
    (writeRoutesToPath outcome routes).Ends file post fails := by
  cases outcome with
  | written => exact hpost rfl
  | failed e => exact hfails e
  | unsynced e => exact hunsynced e rfl

theorem ensureNoLiveProcessRouteReplacement_eq_ok {table : ProcessTable}
    {routes : List (Route libraries)} :
    ensureNoLiveProcessRouteReplacement table routes route = .ok () ↔
      liveProcessRouteForHostname table routes route.hostname = none := by
  unfold ensureNoLiveProcessRouteReplacement
  cases liveProcessRouteForHostname table routes route.hostname with
  | none => simp [pure, Except.pure]
  | some existing => simp

/-- **What an operation can do**, as long as a rollback can be written. -/
theorem Operation.run_effect {env : RouteEnv} (hrollback : env.rollback = .written)
    (file : List (Route libraries)) (operation : Operation libraries) :
    Effect env file operation ((operation.run len env).file file) := by
  apply Locked.Ends.file
  cases operation with
  | addAliasRoute route =>
      unfold Operation.run addRouteToPath
      simp only [Locked.ends_ite, Locked.ends_bind, Locked.ends_lift, Locked.ends_throw]
      refine ⟨fun _ => .nothing _, fun hmode => ⟨fun _ hwrite => ?_, fun _ _ => .nothing _⟩⟩
      apply ends_readRoutesFromPath _ fun _ => .nothing _
      refine ⟨fun _ hfree => ?_, fun _ _ => .nothing _⟩
      have hread := validateRouteForRead_eq_ok.mpr ⟨hwrite, fun h => by simp [h] at hmode⟩
      have hfree := ensureNoLiveProcessRouteReplacement_eq_ok.mp hfree
      exact ends_writeRoutesToPath (fun _ => .addAlias route hread hfree) (fun _ => .nothing _)
        fun _ _ => .addAlias route hread hfree
  | addVerifiedRoute route verify =>
      obtain ⟨before, after⟩ := verify
      unfold Operation.run addRouteToPathVerified
      simp only [Locked.ends_ite, Locked.ends_bind, Locked.ends_lift, Locked.ends_throw]
      refine ⟨fun _ => .nothing _, fun hmode => ⟨fun _ hwrite => ?_, fun _ _ => .nothing _⟩⟩
      apply ends_readRoutesFromPath _ fun _ => .nothing _
      refine ⟨fun _ hfree => ⟨fun _ hbefore => ?_, fun _ _ => .nothing _⟩, fun _ _ => .nothing _⟩
      have hread := validateRouteForRead_eq_ok.mpr ⟨hwrite, fun h => by simpa [h] using hmode⟩
      have hfree := ensureNoLiveProcessRouteReplacement_eq_ok.mp hfree
      have hbefore : before = .ok () := hbefore
      -- a failure behind the replacement leaves the route without the second verification
      refine ends_writeRoutesToPath (fun _ => ?_) (fun _ => .nothing _)
        fun error herror => .addVerified route _ hread hfree (.inr ⟨error, herror⟩)
      cases after with
      | ok => exact .addVerified route _ hread hfree (.inl (by rw [hbefore]))
      | error error =>
          -- the second verification failed: the routes read before are written back
          simp only [hrollback, writeRoutesToPath, Locked.ends_bind, Locked.ends_tryCatch,
            Locked.ends_set, Locked.ends_throw]
          exact .nothing _
  | removeProcessRouteIfOwned ownership =>
      unfold Operation.run DevProxy.removeProcessRouteIfOwned
      rw [Locked.ends_bind]
      apply ends_readRoutesFromPath _ fun _ => .nothing _
      rw [Locked.ends_ite]
      refine ⟨fun _ => .nothing _, fun _ => ?_⟩
      exact ends_writeRoutesToPath (fun _ => .remove ownership) (fun _ => .nothing _)
        fun _ _ => .remove ownership
  | prune =>
      unfold Operation.run DevProxy.prune
      simp only [Locked.ends_bind, Locked.ends_ite, Locked.ends_pure]
      apply ends_readRoutesFromPath _ fun _ => .nothing _
      refine ⟨fun _ => ?_, fun _ => .nothing _⟩
      exact ends_writeRoutesToPath (fun _ => .prune) (fun _ => .nothing _) fun _ _ => .prune

/-! ### Processes over time -/

/-- The processes that run at each moment: the start token of the process that has a PID. -/
abbrev Processes := Nat → Nat → Option String

def Processes.Alive (processes : Processes) (time : Nat) (owner : Owner) : Prop :=
  processes time owner.1 = some owner.2

def Processes.NeverReturn (processes : Processes) : Prop :=
  ∀ owner, ∀ first time last, first ≤ time → time ≤ last → processes.Alive first owner →
    processes.Alive last owner → processes.Alive time owner

/-- Conclusive observations: each answer is true of a moment between two others. -/
structure ProcessTable.Conclusive (table : ProcessTable) (processes : Processes)
    (first last : Nat) : Prop where
  observed : ∀ pid, ∃ time, first ≤ time ∧ time ≤ last ∧
    table.observePid pid = if (processes time pid).isSome then .alive else .absent
  token : ∀ pid, ∃ time, first ≤ time ∧ time ≤ last ∧
    table.processStartToken pid = processes time pid

/-- A process that runs all the time is seen. -/
theorem ProcessTable.Conclusive.routeIsAlive {table : ProcessTable} {processes : Processes}
    {first last : Nat} (h : table.Conclusive processes first last) (hnever : processes.NeverReturn)
    (hsupported : libraries.processStartTokensSupported = true) {owner : Owner}
    (howner : route.owner? = some owner) (hfirst : processes.Alive first owner)
    (hlast : processes.Alive last owner) : routeIsAlive table route = true := by
  obtain ⟨pid, token⟩ := owner
  obtain ⟨t, ht, ht', hobserved⟩ := h.observed pid
  obtain ⟨u, hu, hu', htoken⟩ := h.token pid
  have hrunning : processes t pid = some token := hnever _ _ _ _ ht ht' hfirst hlast
  have hrunning' : processes u pid = some token := hnever _ _ _ _ hu hu' hfirst hlast
  obtain ⟨_, _, _, pid?, token?, mode, _⟩ := route
  cases mode <;> cases pid? <;> cases token? <;> simp [Route.owner?] at howner
  obtain ⟨rfl, rfl⟩ := howner
  simp [DevProxy.routeIsAlive, pidMatchesOwner, hobserved, htoken, hrunning, hrunning', hsupported]

/-- What is answered when everything is asked at one moment. -/
def Processes.table (processes : Processes) (time : Nat) : ProcessTable where
  observePid pid := if (processes time pid).isSome then .alive else .absent
  processStartToken := processes time

theorem Processes.table_conclusive {processes : Processes} {first time last : Nat}
    (hfirst : first ≤ time) (hlast : time ≤ last) :
    (processes.table time).Conclusive processes first last where
  observed _ := ⟨time, hfirst, hlast, rfl⟩
  token _ := ⟨time, hfirst, hlast, rfl⟩

/-! ### Runs -/

/-- An operation on the file, from when it takes the lock to when it releases it. -/
structure Event (libraries : ProxyLibraries) where
  operation : Operation libraries
  startedAt : Nat
  endedAt : Nat
  env : RouteEnv

/-- What the operation leaves. -/
def Event.next (len : DocumentLen libraries) (event : Event libraries)
    (file : List (Route libraries)) : List (Route libraries) :=
  (event.operation.run len event.env).file file

def fileAfter (len : DocumentLen libraries) (events : List (Event libraries)) :
    List (Route libraries) :=
  events.foldl (fun file event => event.next len file) []

/-- Observations are conclusive where the platform has start tokens, and a rollback is not torn from
its operation by a failing write. -/
structure Event.Fair (processes : Processes) (event : Event libraries) : Prop where
  ensuring : libraries.processStartTokensSupported = true →
    event.env.ensuring.Conclusive processes event.startedAt event.endedAt
  retaining : libraries.processStartTokensSupported = true →
    event.env.retaining.Conclusive processes event.startedAt event.endedAt
  rollback : event.env.rollback = .written

/-- What holds of the file at any time. -/
structure WellFormed (file : List (Route libraries)) : Prop where
  distinct : (file.map Route.hostname).Nodup
  readable : ∀ route ∈ file, validateRouteForRead route = .ok ()

section Step

variable {file file' : List (Route libraries)} {event : Event libraries} {env : RouteEnv}

theorem WellFormed.sublist (h : WellFormed file) (hsub : file'.Sublist file) : WellFormed file' where
  distinct := h.distinct.sublist (hsub.map _)
  readable route hroute := h.readable route (hsub.mem hroute)

theorem mem_withRoute {table : ProcessTable} {existing : Route libraries} :
    existing ∈ withRoute table file route ↔
      (existing ∈ file ∧ existing.hostname ≠ route.hostname ∧ routeIsAlive table existing = true) ∨
        existing = route := by
  simp [withRoute, and_comm, and_left_comm]

theorem WellFormed.withRoute (h : WellFormed file) {table : ProcessTable}
    (hread : validateRouteForRead route = .ok ()) : WellFormed (withRoute table file route) := by
  constructor
  · have hkept := h.sublist (List.filter_sublist.trans List.filter_sublist :
      ((file.filter fun existing => existing.hostname != route.hostname).filter
        (routeIsAlive table)).Sublist file)
    rw [DevProxy.withRoute, List.map_append, List.nodup_append']
    refine ⟨hkept.distinct, List.nodup_singleton _, ?_⟩
    simp only [List.disjoint_right, List.map_cons, List.map_nil, List.mem_singleton, forall_eq,
      List.mem_map, List.mem_filter, not_exists, not_and]
    rintro existing ⟨⟨-, hne⟩, -⟩
    exact by simpa using hne
  · intro existing hexisting
    rcases mem_withRoute.mp hexisting with ⟨hmem, -⟩ | rfl
    · exact h.readable existing hmem
    · exact hread

theorem Effect.wellFormed {operation : Operation libraries}
    (heffect : Effect env file operation file') (h : WellFormed file) : WellFormed file' := by
  cases heffect with
  | nothing => exact h
  | addAlias _ hread | addVerified _ _ hread => exact h.withRoute hread
  | remove | prune => exact h.sublist List.filter_sublist

structure KeepsRoutes (processes : Processes) (event : Event libraries)
    (file file' : List (Route libraries)) : Prop where
  live : ∀ route ∈ file, ∀ owner, route.owner? = some owner →
    processes.Alive event.startedAt owner → processes.Alive event.endedAt owner → route ∉ file' →
    event.operation = .removeProcessRouteIfOwned ⟨route.hostname, owner.1, owner.2⟩
  unverified : ∀ route verify, event.operation = .addVerifiedRoute route verify →
    (verify.before ≠ .ok () ∨ verify.after ≠ .ok ()) → (∀ error, event.env.write ≠ .unsynced error) →
    file' = file
  foreign : ∀ ownership, event.operation = .removeProcessRouteIfOwned ownership →
    ∀ route ∈ file, route.owner? ≠ some ownership.owner → route ∈ file'

/-- Where no live process route has the hostname, adding a route keeps all live process routes. -/
theorem mem_withRoute_of_live {ensuring retaining : ProcessTable} {existing : Route libraries}
    (hfree : liveProcessRouteForHostname ensuring file route.hostname = none)
    (hexisting : existing ∈ file) {owner : Owner} (howner : existing.owner? = some owner)
    (hensuring : routeIsAlive ensuring existing = true)
    (hretaining : routeIsAlive retaining existing = true) :
    existing ∈ withRoute retaining file route := by
  have hmode := Route.mode_of_owner? howner
  have hne : existing.hostname ≠ route.hostname := by
    intro heq
    have hnot := List.find?_eq_none.mp hfree existing hexisting
    simp [heq, hmode, hensuring] at hnot
  exact mem_withRoute.mpr (.inl ⟨hexisting, hne, hretaining⟩)

theorem Effect.keepsRoutes {processes : Processes} (hnever : processes.NeverReturn)
    (hfair : event.Fair processes) (h : WellFormed file)
    (heffect : Effect event.env file event.operation file') :
    KeepsRoutes processes event file file' := by
  have hsupported : ∀ route ∈ file, ∀ owner, route.owner? = some owner →
      libraries.processStartTokensSupported = true := by
    intro route hroute owner howner
    have hread := validateRouteForRead_eq_ok.mp (h.readable route hroute)
    exact hread.2 (Route.mode_of_owner? howner)
  generalize hoperation : event.operation = operation at heffect
  constructor
  · intro route hroute owner howner hstart hend hgone
    -- both process tables have the owner, since it runs from before to after
    have hplatform := hsupported route hroute owner howner
    have hensuring := (hfair.ensuring hplatform).routeIsAlive hnever hplatform howner hstart hend
    have hretaining := (hfair.retaining hplatform).routeIsAlive hnever hplatform howner hstart hend
    cases heffect with
    | nothing => exact absurd hroute hgone
    | addAlias _ _ hfree | addVerified _ _ _ hfree =>
        exact absurd (mem_withRoute_of_live hfree hroute howner hensuring hretaining) hgone
    | remove ownership =>
        have hmatches : ownership.matches route = true := by
          by_contra hnot
          exact hgone (List.mem_filter.mpr ⟨hroute, by simpa using hnot⟩)
        obtain ⟨hhostname, hmatching⟩ := ProcessRouteOwnership.matches_iff.mp hmatches
        obtain rfl := Option.some.inj (howner.symm.trans hmatching)
        rw [hoperation, hhostname]
        rfl
    | prune => exact absurd (List.mem_filter.mpr ⟨hroute, hretaining⟩) hgone
  · intro route verify hadd hfailed hsynced
    rw [hoperation] at hadd
    cases heffect with
    | nothing => rfl
    | addVerified added verify' hread hfree hverified =>
        cases hadd
        obtain rfl | ⟨error, herror⟩ := hverified
        · simp at hfailed
        · exact absurd herror (hsynced error)
    | addAlias | remove | prune => cases hadd
  · intro ownership hremove route hroute hforeign
    rw [hoperation] at hremove
    cases heffect with
    | nothing => exact hroute
    | remove removing =>
        cases hremove
        refine List.mem_filter.mpr ⟨hroute, ?_⟩
        simp only [Bool.not_eq_true', Bool.eq_false_iff, ne_eq, ProcessRouteOwnership.matches_iff]
        exact fun hmatches => hforeign hmatches.2
    | addAlias | addVerified | prune => cases hremove

end Step

/-- The file is well formed after every run. -/
theorem fileAfter_wellFormed (len : DocumentLen libraries) {processes : Processes}
    {events : List (Event libraries)}
    (hfair : ∀ event ∈ events, event.Fair processes) : WellFormed (fileAfter len events) := by
  induction events using List.reverseRecOn with
  | nil => exact ⟨List.nodup_nil, by simp [fileAfter]⟩
  | append_singleton events event ih =>
      have hlast := hfair event (by simp)
      have hfile := ih fun e he => hfair e (by simp [he])
      unfold fileAfter
      rw [List.foldl_append]
      exact (Operation.run_effect hlast.rollback _ _).wellFormed hfile

/-- **Live process routes are never displaced.** In every run from an empty file the hostnames are
distinct and process routes have owners; and each step keeps the routes of processes that run,
except for the route that its own owner removes. -/
theorem live_routes_never_displaced (len : DocumentLen libraries) {processes : Processes}
    (hnever : processes.NeverReturn) {events : List (Event libraries)}
    (hfair : ∀ event ∈ events, event.Fair processes) :
    ((fileAfter len events).map Route.hostname).Nodup ∧
      (∀ route ∈ fileAfter len events, route.mode = .process →
        ∃ owner, route.owner? = some owner) ∧
      ∀ earlier event later, events = earlier ++ event :: later →
        KeepsRoutes processes event (fileAfter len earlier) (fileAfter len (earlier ++ [event])) := by
  have hfile := fileAfter_wellFormed len hfair
  refine ⟨hfile.distinct, fun route hroute hmode => ?_, ?_⟩
  · have hread := validateRouteForRead_eq_ok.mp (hfile.readable route hroute)
    exact exists_owner_of_validateRouteForWrite hread.1 hmode
  · rintro earlier event later rfl
    have hevent := hfair event (by simp)
    have hearlier : WellFormed (fileAfter len earlier) :=
      fileAfter_wellFormed len fun e he => hfair e (by simp [he])
    have hnext : fileAfter len (earlier ++ [event]) = event.next len (fileAfter len earlier) := by
      simp [fileAfter]
    rw [hnext]
    exact (Operation.run_effect hevent.rollback _ _).keepsRoutes hnever hevent hearlier

/-- **Process routes are verified.** Behind every run from an empty file, in which a write that
fails leaves the file as it was, a process route of the file was put there by an operation whose
verification succeeded before it was written and after. -/
theorem process_routes_verified {events : List (Event libraries)}
    (hrollback : ∀ event ∈ events, event.env.rollback = .written)
    (hsynced : ∀ event ∈ events, ∀ error, event.env.write ≠ .unsynced error)
    (hprocess : route.mode = .process) (hroute : route ∈ fileAfter len events) :
    ∃ event ∈ events, event.operation = .addVerifiedRoute route ⟨.ok (), .ok ()⟩ := by
  induction events using List.reverseRecOn with
  | nil => exact absurd hroute List.not_mem_nil
  | append_singleton events event ih =>
      have hkept (h : route ∈ fileAfter len events) : ∃ e ∈ events ++ [event],
          e.operation = .addVerifiedRoute route ⟨.ok (), .ok ()⟩ := by
        obtain ⟨e, he, hadded⟩ :=
          ih (fun e he => hrollback e (by simp [he])) (fun e he => hsynced e (by simp [he])) h
        exact ⟨e, by simp [he], hadded⟩
      rw [fileAfter, List.foldl_append] at hroute
      change route ∈ (event.operation.run len event.env).file (fileAfter len events) at hroute
      generalize hfile : (event.operation.run len event.env).file (fileAfter len events) = file'
        at hroute
      have heffect := hfile ▸ Operation.run_effect (hrollback event (by simp)) _ _
      generalize hoperation : event.operation = operation at heffect
      cases heffect with
      | nothing => exact hkept hroute
      | addAlias added =>
          rcases mem_withRoute.mp hroute with ⟨hold, -⟩ | rfl
          · exact hkept hold
          · -- a process route is refused as an alias
            rw [hoperation, Operation.run, if_pos (by simp [hprocess])] at hfile
            rw [← hfile] at hroute
            exact hkept hroute
      | addVerified added verify _ _ hverified =>
          rcases mem_withRoute.mp hroute with ⟨hold, -⟩ | rfl
          · exact hkept hold
          · obtain rfl | ⟨error, herror⟩ := hverified
            · exact ⟨event, by simp, hoperation⟩
            · exact absurd herror (hsynced event (by simp) error)
      | remove | prune => exact hkept (List.mem_of_mem_filter hroute)

namespace SampleRoutes

/-- Only `127.0.0.1` is read as an address, on a platform with start tokens. -/
def linux : ProxyLibraries where
  isIpLiteral host := host == "127.0.0.1"
  processStartTokensSupported := true

def hostname : RouteHostname := ⟨"web.demo.localhost", by decide +kernel, by decide +kernel⟩

def target : TargetHost linux := ⟨"127.0.0.1", by decide +kernel⟩

def processes : Processes := fun time pid =>
  if pid = 7 ∧ time ≤ 5 then some "linux:100" else none

theorem processes_neverReturn : processes.NeverReturn := by
  rintro ⟨pid, token⟩ first time last - hlast - halive
  simp only [Processes.Alive, processes] at halive ⊢
  split at halive
  · rename_i h
    rw [if_pos ⟨h.1, hlast.trans h.2⟩]
    exact halive
  · cases halive

def env (time : Nat) : RouteEnv where
  ensuring := processes.table time
  retaining := processes.table time
  write := .written
  rollback := .written

def served : Route linux where
  hostname := hostname
  targetHost := target
  targetPort := 3000
  ownerPid := some 7
  ownerStartToken := some "linux:100"
  mode := .process
  createdAtMs := 1

def taken : Route linux where
  hostname := hostname
  targetHost := target
  targetPort := 4000
  ownerPid := none
  ownerStartToken := none
  mode := .alias
  createdAtMs := 2

/-- A process publishes its route, and an alias for the hostname is tried before and after it ends.
-/
def events : List (Event linux) :=
  [⟨.addVerifiedRoute served ⟨.ok (), .ok ()⟩, 1, 1, env 1⟩,
    ⟨.addAliasRoute taken, 2, 2, env 2⟩,
    ⟨.addAliasRoute taken, 6, 6, env 6⟩]

theorem live_routes_never_displaced_in_sample :
    (fileAfter (fun _ => 0) events).map Route.targetPort = [4000] ∧
      ((fileAfter (fun _ => 0) events).map Route.hostname).Nodup ∧
      KeepsRoutes processes ⟨.addAliasRoute taken, 2, 2, env 2⟩
        (fileAfter (fun _ => 0) (events.take 1)) (fileAfter (fun _ => 0) (events.take 2)) := by
  have hfair : ∀ event ∈ events, event.Fair processes := by
    simp only [events, List.forall_mem_cons, List.not_mem_nil, false_implies, implies_true, and_true]
    refine ⟨?_, ?_, ?_⟩ <;>
      exact ⟨fun _ => Processes.table_conclusive le_rfl le_rfl,
        fun _ => Processes.table_conclusive le_rfl le_rfl, rfl⟩
  have h := live_routes_never_displaced (fun _ => 0) processes_neverReturn hfair
  exact ⟨by decide +kernel, h.1, h.2.2 (events.take 1) _ (events.drop 2) rfl⟩

theorem process_routes_verified_in_sample :
    ∃ event ∈ events.take 2, event.operation = .addVerifiedRoute served ⟨.ok (), .ok ()⟩ := by
  have hfile : fileAfter (fun _ => 0) (events.take 2) = [served] := by decide +kernel
  exact process_routes_verified (by decide) (by simp [events, env]) rfl
    (hfile ▸ List.mem_singleton_self served)

end SampleRoutes

end Jig.DevProxy
