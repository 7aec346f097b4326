/-
RunCollectors of collectors.go: one collector for each selected source.

# The loop

One goroutine owns the map `running`. A reconciliation reads the
selected sources, cancels every collector whose entry is not up to date
and waits until it has returned, and starts one for every source without
an entry. A refresh request does the same for one source first. The
waiting makes a reconciliation many steps long, and everything else goes
on in between.

# A collector

It refreshes and streams with the source that it was started with, and
with what its own refreshes have renewed. It returns when it was
cancelled, or when a definitive failure of its own was recorded.
-/
import StreamBrew.Lib.Supervisor
import StreamBrew.Chat.Refresh

namespace StreamBrew.Chat

open Relational Supervisor
open Alert (UserID Time)

-- ================================= providers

/-- A source is pulled by a collector, or pushed by a webhook. -/
inductive Collection
  | pull
  | push
  deriving DecidableEq, Repr

/-- How messages of a provider are collected. -/
def Provider.collection : Provider → Collection
  | .kick => .push
  | _ => .pull

-- ================================ collectors

/-- An entry of `running`; the number stands for its cancel function and
its channel `done`. -/
structure RunningCollector where
  collectorID : Nat
  tokenVersion : Nat
  deriving DecidableEq, Repr

/-- A goroutine of collectSource. -/
structure Collector where
  /-- what it was started with -/
  source : OwnedConnectedSource
  /-- what it may refresh and stream with -/
  held : List ConnectedSource
  /-- its own refreshes -/
  refreshes : List Nat := []
  /-- a definitive failure of its own was recorded -/
  rejected : Bool := false
  cancelled : Bool := false
  ended : Bool := false
  /-- `<-collector.done` -/
  joined : Bool := false
  deriving DecidableEq, Repr

namespace Collector

/-- The source that the collector collects. -/
def sourceID (k : Collector) : SourceID :=
  k.source.connectedSource.source.sourceID

/-- The connection that it was started with. -/
def connectionID (k : Collector) : ConnectionID :=
  k.source.connectedSource.source.connectionID

/-- The token version that it was started with. -/
def tokenVersion (k : Collector) : Nat :=
  k.source.connectedSource.credentials.tokenVersion

/-- A collector holds the source that it is started with. -/
def start (source : OwnedConnectedSource) : Collector where
  source
  held := [source.connectedSource]

end Collector

/-- What the guarded write of a refresh hands out. -/
def Service.written (refreshID : Nat) (s : Service) :
    Option ConnectedSource :=
  match s.refreshes[refreshID]? with
  | some { source, stage := .renewing renewal } =>
      (updateConnectionCredentials source.source.connectionID
        source.credentials.tokenVersion renewal.accessToken
        renewal.refreshToken renewal.expiresAt s.db).1.map
          (source.renewed renewal)
  | _ => none

/-- Whether a rejection is recorded. -/
def Service.marked (refreshID : Nat) (s : Service) : Bool :=
  match s.refreshes[refreshID]? with
  | some { source, stage := .rejecting } =>
      (markRefreshRequired source.source.connectionID
        source.credentials.tokenVersion s.db).1
  | _ => false

/-- What a collector does with its credentials, and its return. -/
inductive CollectorAction
  | refresh (source : ConnectedSource)
  | reject (source : ConnectedSource)
  | exchange (refreshID : Nat) (now : Time) (state : String)
      (answer : Answer)
  | write (refreshID : Nat)
  | mark (refreshID : Nat)
  | return
  deriving DecidableEq, Repr

/-- A step of a collector. -/
def Collector.step (configs : Provider → Option RefreshConfig)
    (service : Service) (k : Collector) :
    CollectorAction → Service × Collector
  | .refresh source =>
      if source ∈ k.held then
        (service.step configs (.refresh source),
          { k with refreshes := service.refreshes.length :: k.refreshes })
      else (service, k)
  | .reject source =>
      if source ∈ k.held then
        (service.step configs (.reject source),
          { k with refreshes := service.refreshes.length :: k.refreshes })
      else (service, k)
  | .exchange refreshID now state answer =>
      if refreshID ∈ k.refreshes then
        (service.step configs (.exchange refreshID now state answer), k)
      else (service, k)
  | .write refreshID =>
      if refreshID ∈ k.refreshes then
        (service.step configs (.write refreshID),
          { k with held := (service.written refreshID).toList ++ k.held })
      else (service, k)
  | .mark refreshID =>
      if refreshID ∈ k.refreshes then
        (service.step configs (.mark refreshID),
          { k with rejected := k.rejected || service.marked refreshID })
      else (service, k)
  | .return =>
      if k.cancelled || k.rejected then
        (service, { k with ended := true })
      else (service, k)

-- ================================== the loop

/-- Running entries by source, and collectors by number. -/
abbrev CollectorRoster := Roster SourceID RunningCollector Collector

/-- An entry names its collector, which is dismissed when it was joined. -/
def collectorReading : Reading SourceID RunningCollector Collector where
  worker := (·.collectorID)
  key := Collector.sourceID
  dismissed := (·.joined)

/-- Where the loop of RunCollectors stands: in its select, before or
within a reconciliation, or waiting for a collector. After a refresh
request the reconciliation is yet to begin. -/
inductive LoopPhase
  | selecting
  | reading
  | reconciling (desired : List OwnedConnectedSource)
  | joining (sourceID : SourceID)
      (desired : Option (List OwnedConnectedSource))
  deriving DecidableEq, Repr

/-- The service with its database, the collectors, and the loop. -/
structure Collectors where
  service : Service
  roster : CollectorRoster
  phase : LoopPhase

/-- `desired[sourceID]`. -/
def desiredSource (desired : List OwnedConnectedSource)
    (sourceID : SourceID) : Option OwnedConnectedSource :=
  desired.reverse.find? fun source =>
    source.connectedSource.source.sourceID = sourceID

/-- What a reconciliation selects: sources of providers that run here
and are pulled. -/
def desiredSources (providers : List Provider) (db : Db) :
    List OwnedConnectedSource :=
  (getAllEnabledSources db).filter fun source =>
    source.connectedSource.source.provider ∈ providers
      ∧ source.connectedSource.source.provider.collection = .pull

/-- The entry of a source is up to date. -/
def UpToDate (desired : List OwnedConnectedSource) (sourceID : SourceID)
    (collector : RunningCollector) : Prop :=
  ((desiredSource desired sourceID).any fun source =>
    source.connectedSource.credentials.tokenVersion
      = collector.tokenVersion) = true

instance (desired : List OwnedConnectedSource) (sourceID : SourceID) :
    DecidablePred (UpToDate desired sourceID) :=
  fun _ => inferInstanceAs (Decidable (_ = true))

namespace Collectors

/-- The first loop of a reconciliation has nothing left to cancel. -/
def AllUpToDate (s : Collectors) (desired : List OwnedConnectedSource) :
    Prop :=
  ∀ sourceID ∈ s.roster.keys collectorReading,
    ∀ collector ∈ s.roster.running sourceID,
      UpToDate desired sourceID collector

instance (s : Collectors) (desired : List OwnedConnectedSource) :
    Decidable (s.AllUpToDate desired) :=
  inferInstanceAs (Decidable (∀ _ ∈ _, _))

/-- The second loop has nothing left to start. -/
def AllStarted (s : Collectors) (desired : List OwnedConnectedSource) :
    Prop :=
  ∀ source ∈ desired, (s.roster.running
    source.connectedSource.source.sourceID).isSome = true

instance (s : Collectors) (desired : List OwnedConnectedSource) :
    Decidable (s.AllStarted desired) :=
  inferInstanceAs (Decidable (∀ _ ∈ _, _))

/-- `collector.cancel()`. -/
def cancel (collector : RunningCollector) (s : Collectors) : Collectors :=
  { s with
    roster := s.roster.mark fun collectorID k =>
      if collectorID = collector.collectorID then
        { k with cancelled := true } else k }

/-- The collector of an entry has returned: `<-collector.done`, and the
entry is deleted. -/
def join (sourceID : SourceID) (collector : RunningCollector)
    (s : Collectors) : Collectors :=
  { s with
    roster := (s.roster.drop (· = sourceID)).mark fun collectorID k =>
      if collectorID = collector.collectorID then
        { k with joined := true } else k }

/-- A collector and its entry, with the selected version. -/
def start (source : OwnedConnectedSource) (s : Collectors) : Collectors :=
  { s with
    roster := s.roster.start source.connectedSource.source.sourceID
      (fun collectorID =>
        { collectorID
          tokenVersion := source.connectedSource.credentials.tokenVersion })
      (Collector.start source) }

end Collectors

/-- The steps of everyone else, of the collectors and of the loop. -/
inductive CollectorsAction
  /-- what owners, commands and other instances do -/
  | service (action : Action)
  | collector (collectorID : Nat) (action : CollectorAction)
  /-- the ticker -/
  | tick
  /-- a refresh request -/
  | refresh (sourceID : SourceID)
  /-- GetAllEnabledSources, and whether it succeeds -/
  | read (succeeds : Bool)
  | stop (sourceID : SourceID)
  | join
  | start (sourceID : SourceID)
  /-- the reconciliation is over -/
  | finish
  deriving DecidableEq, Repr

/-- A step of the service. The loop does nothing where it is not at a
step. -/
def Collectors.step (configs : Provider → Option RefreshConfig)
    (providers : List Provider) (s : Collectors) :
    CollectorsAction → Collectors
  | .service action => { s with service := s.service.step configs action }
  | .collector collectorID action =>
      match s.roster.workers collectorID with
      | none => s
      | some k =>
          if k.ended then s
          else
            let (service, stepped) := k.step configs s.service action
            { s with
              service
              roster := s.roster.mark fun i k =>
                if i = collectorID then stepped else k }
  | .tick =>
      match s.phase with
      | .selecting => { s with phase := .reading }
      | _ => s
  | .refresh sourceID =>
      match s.phase with
      | .selecting =>
          match s.roster.running sourceID with
          | some collector =>
              { s.cancel collector with phase := .joining sourceID none }
          | none => { s with phase := .reading }
      | _ => s
  | .read succeeds =>
      match s.phase with
      | .reading =>
          if succeeds then
            let desired := desiredSources providers s.service.db
            { s with
              service := Run.run (Service.step configs) s.service
                (desired.map .load)
              phase := .reconciling desired }
          else { s with phase := .selecting }
      | _ => s
  | .stop sourceID =>
      match s.phase with
      | .reconciling desired =>
          match s.roster.running sourceID with
          | some collector =>
              if UpToDate desired sourceID collector then s
              else { s.cancel collector with
                phase := .joining sourceID (some desired) }
          | none => s
      | _ => s
  | .join =>
      match s.phase with
      | .joining sourceID desired =>
          match s.roster.running sourceID with
          | some collector =>
              if (s.roster.workers collector.collectorID).any
                  (·.ended) then
                { s.join sourceID collector with
                  phase := desired.elim .reading .reconciling }
              else s
          | none => s
      | _ => s
  | .start sourceID =>
      match s.phase with
      | .reconciling desired =>
          match desiredSource desired sourceID,
              s.roster.running sourceID with
          | some source, none =>
              if s.AllUpToDate desired then s.start source else s
          | _, _ => s
      | _ => s
  | .finish =>
      match s.phase with
      | .reconciling desired =>
          if s.AllUpToDate desired ∧ s.AllStarted desired then
            { s with phase := .selecting }
          else s
      | _ => s

/-- The service begins with a reconciliation. -/
def Collectors.init (service : Service) : Collectors where
  service
  roster := .empty
  phase := .reading

end StreamBrew.Chat
