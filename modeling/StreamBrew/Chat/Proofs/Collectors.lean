/-
The steps of collectors and of the loop that keeps them.

# Superseded credentials

A collector that recorded a definitive failure has credentials that no
connected row has any more (`Collector.Superseded`): its row is marked,
or its version has grown since, and every write that makes a row
connected again makes it grow.

# One step

A collector that is there after a step was there before, or the loop has
started it (`worker_step`); so with entries (`running_step`), with what
is stored (`service_step`), and with the loop itself (`goes_step`).
-/
import StreamBrew.Chat.Collectors
import StreamBrew.Chat.Proofs.Credentials

namespace StreamBrew.Chat

open Relational Supervisor

variable {configs : Provider → Option RefreshConfig}
  {providers : List Provider} {service : Service} {k k' : Collector}
  {s : Collectors}

-- =============================== the service

/-- What is held stays held, and a refresh keeps its place and its
source. -/
theorem grows_step (configs : Provider → Option RefreshConfig)
    (service : Service) (a : Action) :
    (∀ source ∈ service.held, source ∈ (service.step configs a).held)
      ∧ ∀ (i : Nat) (refresh : Refresh),
        service.refreshes[i]? = some refresh →
        ∃ refresh', (service.step configs a).refreshes[i]? = some refresh'
          ∧ refresh'.source = refresh.source := by
  have hsame : (∀ source ∈ service.held, source ∈ service.held)
      ∧ ∀ (i : Nat) (refresh : Refresh),
        service.refreshes[i]? = some refresh →
        ∃ refresh', service.refreshes[i]? = some refresh'
          ∧ refresh'.source = refresh.source :=
    ⟨fun _ h => h, fun _ refresh h => ⟨refresh, h, rfl⟩⟩
  have happend : ∀ (new : Refresh) (i : Nat) (refresh : Refresh),
      service.refreshes[i]? = some refresh →
      ∃ refresh', (service.refreshes ++ [new])[i]? = some refresh'
        ∧ refresh'.source = refresh.source := by
    intro new i refresh h
    have hlt := (List.getElem?_eq_some_iff.mp h).1
    exact ⟨refresh, (List.getElem?_append_left hlt).trans h, rfl⟩
  have hset : ∀ (id : Nat) (stage : RefreshStage) (i : Nat)
      (refresh : Refresh), service.refreshes[i]? = some refresh →
      ∃ refresh', (service.setStage id stage).refreshes[i]?
          = some refresh'
        ∧ refresh'.source = refresh.source := by
    intro id stage i refresh h
    unfold Service.setStage
    simp only [List.getElem?_modify, h]
    refine ⟨_, rfl, ?_⟩
    split <;> rfl
  cases a with
  | connect => exact hsame
  | disconnect => exact hsame
  | setSourceEnabled => exact hsame
  | load source =>
      unfold Service.step
      simp only
      split
      case isTrue => exact ⟨fun _ h => List.mem_cons_of_mem _ h, hsame.2⟩
      case isFalse => exact hsame
  | refresh source =>
      unfold Service.step
      simp only
      split
      case isTrue => exact ⟨hsame.1, happend _⟩
      case isFalse => exact hsame
  | reject source =>
      unfold Service.step
      simp only
      split
      case isTrue => exact ⟨hsame.1, happend _⟩
      case isFalse => exact hsame
  | exchange refreshID now state answer =>
      unfold Service.step
      simp only
      split
      case h_2 => exact hsame
      case h_1 =>
        split
        case h_1 => exact ⟨hsame.1, hset _ _⟩
        case h_2 => exact ⟨hsame.1, hset _ _⟩
        case h_3 => split <;> exact ⟨hsame.1, hset _ _⟩
  | write refreshID =>
      unfold Service.step
      simp only
      split
      case h_2 => exact hsame
      case h_1 =>
        unfold Service.write
        simp only
        split
        case h_1 => exact ⟨hsame.1, hset _ _⟩
        case h_2 =>
          exact ⟨fun _ h => List.mem_cons_of_mem _ h, hset _ _⟩
  | mark refreshID =>
      unfold Service.step
      simp only
      split
      case h_2 => exact hsame
      case h_1 => exact ⟨hsame.1, hset _ _⟩

-- =============================== a collector

/-- Credentials that a collector may come to hold which was started with
a source. -/
structure Covers (started : OwnedConnectedSource)
    (source : ConnectedSource) : Prop where
  connectionID : source.source.connectionID
    = started.connectedSource.source.connectionID
  version : started.connectedSource.credentials.tokenVersion
    ≤ source.credentials.tokenVersion

namespace Collector

/-- No connected row has the credentials it was started with. -/
def Superseded (k : Collector) (db : Db) : Prop :=
  ∀ r ∈ db.connections, r.connectionID = k.connectionID →
    k.tokenVersion < r.tokenVersion
      ∨ k.tokenVersion ≤ r.tokenVersion ∧ r.status = .refreshRequired

/-- What a collector holds was loaded or renewed for the connection it was
started with, and a rejection of its own is in the database. -/
structure Sound (service : Service) (k : Collector) : Prop where
  drawn : k.connectionID < service.db.connectionIDs
  held : ∀ source ∈ k.held, source ∈ service.held ∧ Covers k.source source
  refreshes : ∀ refreshID ∈ k.refreshes, ∃ refresh,
    service.refreshes[refreshID]? = some refresh
      ∧ Covers k.source refresh.source
  rejected : k.rejected = true → k.Superseded service.db

/-- Superseded credentials do not come back. -/
theorem Superseded.step (h : k.Superseded service.db)
    (hdrawn : k.connectionID < service.db.connectionIDs) (a : Action) :
    k.Superseded (service.step configs a).db := by
  intro r' hr' hid
  rcases origin_step a hr' with ⟨r, hr, hevolves⟩ | hcreated
  · have hbefore := h r hr (hevolves.id.symm.trans hid)
    cases hevolves with
    | keep => exact hbefore
    | reconnect =>
        left
        rcases hbefore with hlt | ⟨hle, -⟩
        · exact Nat.lt_succ_of_lt hlt
        · exact Nat.lt_succ_of_le hle
    | renew =>
        left
        rcases hbefore with hlt | ⟨hle, -⟩
        · exact Nat.lt_succ_of_lt hlt
        · exact Nat.lt_succ_of_le hle
    | mark => exact hbefore.imp id fun h => ⟨h.1, rfl⟩
  · rw [← hid, hcreated.id] at hdrawn
    exact absurd hdrawn (Nat.lt_irrefl _)

/-- Nobody else takes anything from a collector. -/
theorem Sound.others (h : k.Sound service)
    (configs : Provider → Option RefreshConfig) (a : Action) :
    k.Sound (service.step configs a) where
  drawn := Nat.lt_of_lt_of_le h.drawn (connectionIDs_step service a)
  held := fun source hmem =>
    ⟨(grows_step configs service a).1 source (h.held source hmem).1,
      (h.held source hmem).2⟩
  refreshes := fun refreshID hmem => by
    obtain ⟨refresh, hrefresh, hcovers⟩ := h.refreshes refreshID hmem
    obtain ⟨refresh', hrefresh', hsource⟩ :=
      (grows_step configs service a).2 _ _ hrefresh
    exact ⟨refresh', hrefresh', hsource ▸ hcovers⟩
  rejected := fun hrejected => (h.rejected hrejected).step h.drawn a

/-- What the guarded write of a refresh hands out is held, and a later
version of what it started from. -/
theorem written_mem (configs : Provider → Option RefreshConfig)
    {refreshID : Nat} {refresh : Refresh}
    {written : ConnectedSource}
    (hrefresh : service.refreshes[refreshID]? = some refresh)
    (h : service.written refreshID = some written) :
    written ∈ (service.step configs (.write refreshID)).held
      ∧ written.source = refresh.source.source
      ∧ written.credentials.tokenVersion
        = refresh.source.credentials.tokenVersion + 1 := by
  unfold Service.written at h
  unfold Service.step
  simp only
  rw [hrefresh] at h ⊢
  split at h
  case h_2 => cases h
  case h_1 source renewal he =>
    cases he
    obtain ⟨version, hversion, rfl⟩ := Option.map_eq_some_iff.mp h
    refine ⟨?_, rfl, ?_⟩
    · show _ ∈ (Service.write refreshID source renewal service).held
      unfold Service.write
      simp only [hversion]
      exact List.mem_cons_self
    · obtain ⟨r, hfound, rfl⟩ := Option.map_eq_some_iff.mp hversion
      exact congrArg (· + 1) (Table.find?_eq_some hfound).2.2

/-- A recorded rejection leaves its row marked, at the version that it
is about. -/
theorem marked_status (configs : Provider → Option RefreshConfig)
    {refreshID : Nat} {refresh : Refresh}
    (hrefresh : service.refreshes[refreshID]? = some refresh)
    (h : service.marked refreshID = true) {r : Connection}
    (hr : r ∈ (service.step configs (.mark refreshID)).db.connections)
    (hid : r.connectionID = refresh.source.source.connectionID) :
    r.tokenVersion = refresh.source.credentials.tokenVersion
      ∧ r.status = .refreshRequired := by
  unfold Service.marked at h
  unfold Service.step at hr
  simp only at hr
  rw [hrefresh] at h hr
  split at h
  case h_2 => cases h
  case h_1 source he =>
    cases he
    have hcount := of_decide_eq_true h
    have hpos : service.db.connections.count (Connection.At
        source.source.connectionID source.credentials.tokenVersion)
        ≠ 0 := by
      rw [hcount]
      exact Nat.one_ne_zero
    have hexists : ∃ r₀ ∈ service.db.connections, Connection.At
        source.source.connectionID source.credentials.tokenVersion r₀ := by
      by_contra hnone
      exact hpos (Table.count_eq_zero.mpr fun r₀ hr₀ hat =>
        hnone ⟨r₀, hr₀, hat⟩)
    obtain ⟨r₀, hr₀, hat⟩ := hexists
    have hupdated : r ∈ service.db.connections.update (Connection.At
        source.source.connectionID source.credentials.tokenVersion)
        (fun r => { r with status := .refreshRequired })
        (Table.keeps rfl) := hr
    obtain ⟨r₁, hr₁, heq⟩ := Table.mem_update.mp hupdated
    have hid₁ : r₁.connectionID = source.source.connectionID := by
      rw [← hid, ← heq]
      split <;> rfl
    have hsame : r₁ = r₀ := Table.eq_of_key hr₁ hr₀ (hid₁.trans hat.1.symm)
    subst hsame
    rw [if_pos hat] at heq
    subst heq
    exact ⟨hat.2, rfl⟩

/-- One step of a collector. -/
theorem Sound.step (h : k.Sound service) (action : CollectorAction) :
    (k.step configs service action).2.Sound
      (k.step configs service action).1 := by
  -- a refresh that is begun is the next one of the list
  have hbegin : ∀ (source : ConnectedSource) (stage : RefreshStage)
      (a : Action), source ∈ k.held →
      (source ∈ service.held → (service.step configs a).refreshes
        = service.refreshes ++ [({ source, stage } : Refresh)]) →
      Sound (service.step configs a)
        { k with refreshes := service.refreshes.length :: k.refreshes } := by
    intro source stage a hmem hstep
    obtain ⟨hheld, hcovers⟩ := h.held source hmem
    have hsound := h.others configs a
    refine ⟨hsound.drawn, hsound.held, ?_, hsound.rejected⟩
    intro refreshID hid
    rcases List.mem_cons.mp hid with rfl | hold
    · rw [hstep hheld, List.getElem?_concat_length]
      exact ⟨_, rfl, hcovers⟩
    · exact hsound.refreshes refreshID hold
  cases action with
  | refresh source =>
      unfold Collector.step
      simp only
      split
      case isFalse => exact h
      case isTrue hmem =>
        refine hbegin source .asking (.refresh source) hmem
          fun hheld => ?_
        unfold Service.step
        simp only [if_pos hheld]
  | reject source =>
      unfold Collector.step
      simp only
      split
      case isFalse => exact h
      case isTrue hmem =>
        refine hbegin source .rejecting (.reject source) hmem
          fun hheld => ?_
        unfold Service.step
        simp only [if_pos hheld]
  | exchange refreshID now state answer =>
      unfold Collector.step
      simp only
      split
      case isFalse => exact h
      case isTrue =>
        exact h.others configs (.exchange refreshID now state answer)
  | write refreshID =>
      unfold Collector.step
      simp only
      split
      case isFalse => exact h
      case isTrue hmem =>
        have hsound := h.others configs (.write refreshID)
        refine ⟨hsound.drawn, fun source hsource => ?_, hsound.refreshes,
          hsound.rejected⟩
        rcases List.mem_append.mp hsource with hnew | hold
        · obtain ⟨refresh, hrefresh, hcovers⟩ := h.refreshes _ hmem
          obtain ⟨hheld, hsame, hversion⟩ := written_mem configs
            hrefresh (Option.mem_toList.mp hnew)
          refine ⟨hheld, ?_, ?_⟩
          · rw [hsame]
            exact hcovers.connectionID
          · rw [hversion]
            exact Nat.le_succ_of_le hcovers.version
        · exact hsound.held source hold
  | mark refreshID =>
      unfold Collector.step
      simp only
      split
      case isFalse => exact h
      case isTrue hmem =>
        have hsound := h.others configs (.mark refreshID)
        refine ⟨hsound.drawn, hsound.held, hsound.refreshes, ?_⟩
        intro hrejected
        rcases Bool.or_eq_true_iff.mp hrejected with hold | hmarked
        · exact hsound.rejected hold
        · obtain ⟨refresh, hrefresh, hcovers⟩ := h.refreshes _ hmem
          intro r hr hid
          obtain ⟨hversion, hstatus⟩ := marked_status configs
            hrefresh hmarked hr
            (hid.trans hcovers.connectionID.symm)
          refine Or.inr ⟨?_, hstatus⟩
          rw [hversion]
          exact hcovers.version
  | «return» =>
      unfold Collector.step
      simp only
      split
      case isFalse => exact h
      case isTrue => exact ⟨h.drawn, h.held, h.refreshes, h.rejected⟩

/-- A step of a collector makes one step of the service at most. -/
theorem service_step (configs : Provider → Option RefreshConfig)
    (service : Service) (k : Collector) (action : CollectorAction) :
    (k.step configs service action).1 = service
      ∨ ∃ a, (k.step configs service action).1
        = service.step configs a := by
  cases action with
  | refresh source =>
      unfold Collector.step
      simp only
      split
      case isTrue => exact Or.inr ⟨.refresh source, rfl⟩
      case isFalse => exact Or.inl rfl
  | reject source =>
      unfold Collector.step
      simp only
      split
      case isTrue => exact Or.inr ⟨.reject source, rfl⟩
      case isFalse => exact Or.inl rfl
  | exchange refreshID now state answer =>
      unfold Collector.step
      simp only
      split
      case isTrue =>
        exact Or.inr ⟨.exchange refreshID now state answer, rfl⟩
      case isFalse => exact Or.inl rfl
  | write refreshID =>
      unfold Collector.step
      simp only
      split
      case isTrue => exact Or.inr ⟨.write refreshID, rfl⟩
      case isFalse => exact Or.inl rfl
  | mark refreshID =>
      unfold Collector.step
      simp only
      split
      case isTrue => exact Or.inr ⟨.mark refreshID, rfl⟩
      case isFalse => exact Or.inl rfl
  | «return» =>
      left
      unfold Collector.step
      simp only
      split <;> rfl

/-- What the steps of a collector leave alone. -/
structure Same (k k' : Collector) : Prop where
  source : k'.source = k.source
  joined : k'.joined = k.joined
  cancelled : k'.cancelled = k.cancelled
  ended : k.ended = true → k'.ended = true
  rejected : k.rejected = true → k'.rejected = true

theorem same_step (configs : Provider → Option RefreshConfig)
    (service : Service) (k : Collector) (action : CollectorAction) :
    Same k (k.step configs service action).2 := by
  have hrefl : Same k k := ⟨rfl, rfl, rfl, id, id⟩
  cases action with
  | refresh =>
      unfold Collector.step
      simp only
      split
      case isTrue => exact ⟨rfl, rfl, rfl, id, id⟩
      case isFalse => exact hrefl
  | reject =>
      unfold Collector.step
      simp only
      split
      case isTrue => exact ⟨rfl, rfl, rfl, id, id⟩
      case isFalse => exact hrefl
  | exchange =>
      unfold Collector.step
      simp only
      split <;> exact hrefl
  | write =>
      unfold Collector.step
      simp only
      split
      case isTrue => exact ⟨rfl, rfl, rfl, id, id⟩
      case isFalse => exact hrefl
  | mark =>
      unfold Collector.step
      simp only
      split
      case isTrue =>
        refine ⟨rfl, rfl, rfl, id, fun hrejected => ?_⟩
        exact Bool.or_eq_true_iff.mpr (Or.inl hrejected)
      case isFalse => exact hrefl
  | «return» =>
      unfold Collector.step
      simp only
      split
      case isTrue => exact ⟨rfl, rfl, rfl, fun _ => rfl, id⟩
      case isFalse => exact hrefl

end Collector

-- ================================== one step

/-- The loop waits for the collector of an entry. -/
def Collectors.Joins (s : Collectors) (collectorID : Nat) (k : Collector) :
    Prop :=
  ∃ sourceID desired collector, s.phase = .joining sourceID desired
    ∧ collector ∈ s.roster.running sourceID
    ∧ collectorID = collector.collectorID ∧ k.ended = true

/-- What a step does to a collector. -/
inductive Turns (configs : Provider → Option RefreshConfig)
    (s s' : Collectors) : Nat → Collector → Collector → Prop
  | keep (i k) : Turns configs s s' i k k
  | own (i k) (action : CollectorAction)
      (hservice : s'.service = (k.step configs s.service action).1) :
      Turns configs s s' i k (k.step configs s.service action).2
  | cancel (i k) : Turns configs s s' i k { k with cancelled := true }
  | join {i k} (h : s.Joins i k) :
      Turns configs s s' i k { k with joined := true }

/-- What the loop starts. -/
structure Started (s : Collectors) (a : CollectorsAction) (i : Nat)
    (k : Collector) : Prop where
  action : a = .start k.sourceID
  number : i = s.roster.started
  started : k = Collector.start k.source
  desired : ∃ desired, s.phase = .reconciling desired
    ∧ desiredSource desired k.sourceID = some k.source

/-- Where a collector comes from. -/
theorem worker_step {i : Nat} (a : CollectorsAction)
    (h : k' ∈ (s.step configs providers a).roster.workers i) :
    (∃ k ∈ s.roster.workers i,
      Turns configs s (s.step configs providers a) i k k')
      ∨ Started s a i k' := by
  have hkeep : k' ∈ s.roster.workers i →
      (∃ k ∈ s.roster.workers i,
        Turns configs s (s.step configs providers a) i k k')
        ∨ Started s a i k' :=
    fun h => Or.inl ⟨k', h, .keep i k'⟩
  have hcancel : ∀ collector : RunningCollector,
      k' ∈ (s.cancel collector).roster.workers i →
      (∃ k ∈ s.roster.workers i,
        Turns configs s (s.step configs providers a) i k k')
        ∨ Started s a i k' := by
    intro collector h
    obtain ⟨k, hk, rfl⟩ := Roster.mem_mark.mp h
    refine Or.inl ⟨k, hk, ?_⟩
    split
    case isTrue => exact .cancel i k
    case isFalse => exact .keep i k
  cases a with
  | service action => exact hkeep h
  | collector collectorID action =>
      unfold Collectors.step at h
      simp only at h
      split at h
      case h_1 => exact hkeep h
      case h_2 k hk =>
        split at h
        case isTrue => exact hkeep h
        case isFalse hrunning =>
          obtain ⟨k₀, hk₀, rfl⟩ := Roster.mem_mark.mp h
          refine Or.inl ⟨k₀, hk₀, ?_⟩
          split
          case isTrue heq =>
            subst heq
            have hsame : k = k₀ := Option.some.inj (hk.symm.trans hk₀)
            subst hsame
            refine .own i k action ?_
            unfold Collectors.step
            simp only [hk]
            rw [if_neg hrunning]
          case isFalse => exact .keep i k₀
  | tick =>
      unfold Collectors.step at h
      simp only at h
      split at h <;> exact hkeep h
  | refresh sourceID =>
      unfold Collectors.step at h
      simp only at h
      split at h
      case h_1 =>
        split at h
        case h_1 collector hcollector => exact hcancel collector h
        case h_2 => exact hkeep h
      case h_2 => exact hkeep h
  | read succeeds =>
      unfold Collectors.step at h
      simp only at h
      split at h
      case h_1 => split at h <;> exact hkeep h
      case h_2 => exact hkeep h
  | stop sourceID =>
      unfold Collectors.step at h
      simp only at h
      split at h
      case h_1 =>
        split at h
        case h_1 collector hcollector =>
          split at h
          case isTrue => exact hkeep h
          case isFalse => exact hcancel collector h
        case h_2 => exact hkeep h
      case h_2 => exact hkeep h
  | join =>
      unfold Collectors.step at h
      simp only at h
      split at h
      case h_2 => exact hkeep h
      case h_1 sourceID desired hphase =>
        split at h
        case h_2 => exact hkeep h
        case h_1 collector hcollector =>
          split at h
          case isFalse => exact hkeep h
          case isTrue hended =>
            obtain ⟨k, hk, rfl⟩ := Roster.mem_mark.mp h
            refine Or.inl ⟨k, hk, ?_⟩
            split
            case isTrue heq =>
              subst heq
              have hk' : s.roster.workers collector.collectorID = some k := hk
              rw [hk'] at hended
              exact .join ⟨sourceID, desired, collector, hphase, hcollector,
                rfl, hended⟩
            case isFalse => exact .keep i k
  | start sourceID =>
      unfold Collectors.step at h
      simp only at h
      split at h
      case h_2 => exact hkeep h
      case h_1 desired hphase =>
        split at h
        case h_2 => exact hkeep h
        case h_1 source hsource hfree =>
          split at h
          case isFalse => exact hkeep h
          case isTrue =>
            have hid : source.connectedSource.source.sourceID = sourceID := by
              simpa using List.find?_some hsource
            change Function.update s.roster.workers _ _ i = some k' at h
            by_cases hi : i = s.roster.started
            · subst hi
              rw [Function.update_self] at h
              cases h
              refine Or.inr ⟨congrArg _ hid.symm, rfl, rfl, desired, hphase,
                ?_⟩
              show desiredSource desired
                source.connectedSource.source.sourceID = some source
              rw [hid]
              exact hsource
            · rw [Function.update_of_ne hi] at h
              exact hkeep h
  | finish =>
      unfold Collectors.step at h
      simp only at h
      split at h
      case h_1 => split at h <;> exact hkeep h
      case h_2 => exact hkeep h

/-- An entry is there already, or its collector was started now. -/
theorem running_step {sourceID : SourceID} {collector : RunningCollector}
    (a : CollectorsAction) (h : collector
      ∈ (s.step configs providers a).roster.running sourceID) :
    collector ∈ s.roster.running sourceID
      ∨ ∃ k, Started s a collector.collectorID k
        ∧ k.sourceID = sourceID ∧ collector.tokenVersion = k.tokenVersion
        ∧ k ∈ (s.step configs providers a).roster.workers
          collector.collectorID := by
  cases a with
  | service => exact Or.inl h
  | collector collectorID action =>
      unfold Collectors.step at h
      simp only at h
      split at h
      case h_1 => exact Or.inl h
      case h_2 => split at h <;> exact Or.inl h
  | tick =>
      unfold Collectors.step at h
      simp only at h
      split at h <;> exact Or.inl h
  | refresh sourceID =>
      unfold Collectors.step at h
      simp only at h
      split at h
      case h_1 => split at h <;> exact Or.inl h
      case h_2 => exact Or.inl h
  | read succeeds =>
      unfold Collectors.step at h
      simp only at h
      split at h
      case h_1 => split at h <;> exact Or.inl h
      case h_2 => exact Or.inl h
  | stop sourceID =>
      unfold Collectors.step at h
      simp only at h
      split at h
      case h_1 =>
        split at h
        case h_1 => split at h <;> exact Or.inl h
        case h_2 => exact Or.inl h
      case h_2 => exact Or.inl h
  | join =>
      unfold Collectors.step at h
      simp only at h
      split at h
      case h_2 => exact Or.inl h
      case h_1 =>
        split at h
        case h_2 => exact Or.inl h
        case h_1 =>
          split at h
          case isFalse => exact Or.inl h
          case isTrue =>
            left
            change (if _ then none else s.roster.running sourceID)
              = some collector at h
            split at h
            case isTrue => cases h
            case isFalse => exact h
  | start startID =>
      unfold Collectors.step at h ⊢
      simp only at h ⊢
      split at h
      case h_2 => exact Or.inl h
      case h_1 desired hphase =>
        split at h
        case h_2 => exact Or.inl h
        case h_1 source hsource hfree =>
          split at h
          case isFalse => exact Or.inl h
          case isTrue hready =>
            have hid : source.connectedSource.source.sourceID = startID := by
              simpa using List.find?_some hsource
            change Function.update s.roster.running _ _ sourceID
              = some collector at h
            by_cases hsame :
                sourceID = source.connectedSource.source.sourceID
            · subst hsame
              rw [Function.update_self] at h
              cases h
              refine Or.inr ⟨Collector.start source, ⟨congrArg _ hid.symm,
                rfl, rfl, desired, hphase, ?_⟩, rfl, rfl, ?_⟩
              · show desiredSource desired
                  source.connectedSource.source.sourceID = some source
                rw [hid]
                exact hsource
              · rw [if_pos hready]
                show Function.update s.roster.workers _ _ _ = _
                rw [Function.update_self]
            · rw [Function.update_of_ne hsame] at h
              exact Or.inl h
  | finish =>
      unfold Collectors.step at h
      simp only at h
      split at h
      case h_1 => split at h <;> exact Or.inl h
      case h_2 => exact Or.inl h

/-- What every step of the store's side preserves. -/
theorem service_step {P : Service → Prop}
    (hP : ∀ service a, P service → P (service.step configs a))
    (a : CollectorsAction) (h : P s.service) :
    P (s.step configs providers a).service := by
  have hown : ∀ (k : Collector) action, P (k.step configs s.service
      action).1 := by
    intro k action
    rcases Collector.service_step configs s.service k action with
      hsame | ⟨a, hstep⟩
    · rw [hsame]
      exact h
    · rw [hstep]
      exact hP s.service a h
  cases a with
  | service action => exact hP s.service action h
  | collector collectorID action =>
      unfold Collectors.step
      simp only
      split
      case h_1 => exact h
      case h_2 k hk =>
        split
        case isTrue => exact h
        case isFalse => exact hown k action
  | read succeeds =>
      unfold Collectors.step
      simp only
      split
      case h_2 => exact h
      case h_1 =>
        split
        case isFalse => exact h
        case isTrue => exact Run.run_preserves h hP _
  | tick =>
      unfold Collectors.step
      simp only
      split <;> exact h
  | refresh sourceID =>
      unfold Collectors.step
      simp only
      split
      case h_1 => split <;> exact h
      case h_2 => exact h
  | stop sourceID =>
      unfold Collectors.step
      simp only
      split
      case h_1 =>
        split
        case h_1 => split <;> exact h
        case h_2 => exact h
      case h_2 => exact h
  | join =>
      unfold Collectors.step
      simp only
      split
      case h_2 => exact h
      case h_1 =>
        split
        case h_2 => exact h
        case h_1 => split <;> exact h
  | start startID =>
      unfold Collectors.step
      simp only
      split
      case h_2 => exact h
      case h_1 =>
        split
        case h_2 => exact h
        case h_1 => split <;> exact h
  | finish =>
      unfold Collectors.step
      simp only
      split
      case h_1 => split <;> exact h
      case h_2 => exact h

/-- What a reconciliation that is under way has selected. -/
def Collectors.desired (s : Collectors) :
    Option (List OwnedConnectedSource) :=
  match s.phase with
  | .selecting | .reading => none
  | .reconciling desired => some desired
  | .joining _ desired => desired

/-- How the loop moves on. -/
inductive Goes (providers : List Provider) (s s' : Collectors) :
    CollectorsAction → Prop
  | stay (a) : s'.phase = s.phase → Goes providers s s' a
  | reading (a) : s'.phase = .reading → Goes providers s s' a
  | selecting (a) : s'.phase = .selecting → Goes providers s s' a
  | read : s.phase = .reading →
      s'.phase = .reconciling (desiredSources providers s.service.db) →
      Goes providers s s' (.read true)
  | joining (a) {sourceID desired collector} : s.desired = desired →
      s'.phase = .joining sourceID desired →
      collector ∈ s.roster.running sourceID →
      s'.roster = (s.cancel collector).roster → Goes providers s s' a
  | joined (a) {sourceID desired} :
      s.phase = .joining sourceID (some desired) →
      s'.phase = .reconciling desired → Goes providers s s' a

theorem goes_step (configs : Provider → Option RefreshConfig)
    (providers : List Provider) (s : Collectors) (a : CollectorsAction) :
    Goes providers s (s.step configs providers a) a := by
  cases a with
  | service => exact .stay _ rfl
  | collector collectorID action =>
      refine .stay _ ?_
      unfold Collectors.step
      simp only
      split
      case h_1 => rfl
      case h_2 => split <;> rfl
  | tick =>
      unfold Collectors.step
      simp only
      split
      case h_1 => exact .reading _ rfl
      case h_2 => exact .stay _ rfl
  | refresh sourceID =>
      unfold Collectors.step
      simp only
      split
      case h_2 => exact .stay _ rfl
      case h_1 hphase =>
        split
        case h_2 => exact .reading _ rfl
        case h_1 collector hcollector =>
          refine .joining _ ?_ rfl hcollector rfl
          unfold Collectors.desired
          rw [hphase]
  | read succeeds =>
      unfold Collectors.step
      simp only
      split
      case h_2 => exact .stay _ rfl
      case h_1 hphase =>
        cases succeeds with
        | true => exact .read hphase rfl
        | false => exact .selecting _ rfl
  | stop sourceID =>
      unfold Collectors.step
      simp only
      split
      case h_2 => exact .stay _ rfl
      case h_1 desired hphase =>
        split
        case h_2 => exact .stay _ rfl
        case h_1 collector hcollector =>
          split
          case isTrue => exact .stay _ rfl
          case isFalse =>
            refine .joining _ ?_ rfl hcollector rfl
            unfold Collectors.desired
            rw [hphase]
  | join =>
      unfold Collectors.step
      simp only
      split
      case h_2 => exact .stay _ rfl
      case h_1 sourceID desired hphase =>
        split
        case h_2 => exact .stay _ rfl
        case h_1 =>
          split
          case isFalse => exact .stay _ rfl
          case isTrue =>
            cases desired with
            | none => exact .reading _ rfl
            | some desired => exact .joined _ hphase rfl
  | start startID =>
      refine .stay _ ?_
      unfold Collectors.step
      simp only
      split
      case h_2 => rfl
      case h_1 =>
        split
        case h_2 => rfl
        case h_1 => split <;> rfl
  | finish =>
      unfold Collectors.step
      simp only
      split
      case h_2 => exact .stay _ rfl
      case h_1 =>
        split
        case isTrue => exact .selecting _ rfl
        case isFalse => exact .stay _ rfl

end StreamBrew.Chat
