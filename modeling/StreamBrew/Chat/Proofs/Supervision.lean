/-
No collector is doubled, and none that was rejected stays.

# One collector for each source

Entries of `running` are the collectors that were not joined
(`Supervisor.Roster.Inv`), and a collector is joined when it has been
cancelled and has returned. So a source has one collector at most that
has not returned.

# What a reconciliation compares

An entry is up to date when the selected credentials have the version
that its collector was started with; the connection is not compared. A
reconciliation is unambiguous when no collected source is selected
through another connection at the same version. Then an entry that is up
to date serves the selected credentials (`Serving`). Otherwise the
collector stays, be it one that has returned (`repointed_kept`).
-/
import StreamBrew.Chat.Proofs.Collectors

namespace StreamBrew.Chat

open Relational Supervisor

variable {desired : List OwnedConnectedSource}

variable {configs : Provider → Option RefreshConfig}
  {providers : List Provider} {k k' : Collector} {s : Collectors}

-- ================================= invariant

/-- Entries, collectors and credentials agree. -/
structure Collectors.Inv (s : Collectors) : Prop where
  roster : s.roster.Inv collectorReading
  drawn : s.service.db.Drawn
  sound : ∀ i, ∀ k ∈ s.roster.workers i, k.Sound s.service
  /-- a selected source is as good as a collector that starts with it -/
  desired : ∀ desired ∈ s.desired, ∀ source ∈ desired,
    (Collector.start source).Sound s.service
  versions : ∀ sourceID, ∀ collector ∈ s.roster.running sourceID,
    ∀ k ∈ s.roster.workers collector.collectorID,
      k.tokenVersion = collector.tokenVersion
  joining : ∀ sourceID desired, s.phase = .joining sourceID desired →
    ∀ collector ∈ s.roster.running sourceID,
    ∀ k ∈ s.roster.workers collector.collectorID, k.cancelled = true
  joined : ∀ i, ∀ k ∈ s.roster.workers i, k.joined = true →
    k.cancelled = true ∧ k.ended = true

theorem Turns.source {s' : Collectors} {i : Nat}
    (h : Turns configs s s' i k k') : k'.source = k.source := by
  cases h with
  | own action _ =>
      exact (Collector.same_step configs s.service k action).source
  | _ => rfl

theorem Turns.cancelled {s' : Collectors} {i : Nat}
    (h : Turns configs s s' i k k') (hk : k.cancelled = true) :
    k'.cancelled = true := by
  cases h with
  | own action _ =>
      exact (Collector.same_step configs s.service k action).cancelled.trans
        hk
  | cancel => rfl
  | _ => exact hk

theorem load_step (configs : Provider → Option RefreshConfig)
    (service : Service) (source : OwnedConnectedSource) :
    (service.step configs (.load source)).db = service.db
      ∧ (source ∈ loadConnectedSources source.userID none service.db →
        source.connectedSource
          ∈ (service.step configs (.load source)).held) := by
  unfold Service.step
  simp only
  split
  case isTrue => exact ⟨rfl, fun _ => List.mem_cons_self⟩
  case isFalse hnot => exact ⟨rfl, fun h => absurd h hnot⟩

/-- Loading the sources of a reconciliation. -/
theorem loads (configs : Provider → Option RefreshConfig)
    (desired : List OwnedConnectedSource) (service : Service) :
    (Run.run (Service.step configs) service (desired.map .load)).db
        = service.db
      ∧ (∀ source ∈ service.held, source ∈ (Run.run (Service.step configs)
        service (desired.map .load)).held)
      ∧ ∀ source ∈ desired,
        source ∈ loadConnectedSources source.userID none service.db →
        source.connectedSource ∈ (Run.run (Service.step configs) service
          (desired.map .load)).held := by
  induction desired generalizing service with
  | nil => exact ⟨rfl, fun _ h => h, fun _ h => absurd h List.not_mem_nil⟩
  | cons first desired ih =>
      rw [List.map_cons, Run.run_cons]
      obtain ⟨hdb, hfirst⟩ := load_step configs service first
      obtain ⟨hrest, hheld, hloaded⟩ :=
        ih (service.step configs (.load first))
      rw [hdb] at hrest hloaded
      refine ⟨hrest, fun source h => ?_, fun source hmem h => ?_⟩
      · exact hheld source
          ((grows_step configs service (.load first)).1 source h)
      · rcases List.mem_cons.mp hmem with rfl | hmem
        · exact hheld _ (hfirst h)
        · exact hloaded source hmem h

/-- A selected row of the database is sound to start with. -/
theorem start_sound (configs : Provider → Option RefreshConfig)
    {service : Service} (hdrawn : service.db.Drawn)
    {source : OwnedConnectedSource}
    (hmem : source ∈ desiredSources providers service.db) :
    (Collector.start source).Sound (Run.run (Service.step configs) service
      ((desiredSources providers service.db).map .load)) := by
  obtain ⟨hdb, -, hloaded⟩ :=
    loads configs (desiredSources providers service.db) service
  obtain ⟨row, hrow, r, hr, hid, hu, henabled, -, he⟩ :=
    mem_selectSources.mp (List.mem_filter.mp hmem).1
  have hload : source ∈ loadConnectedSources source.userID none
      service.db := by
    refine mem_selectSources.mpr
      ⟨row, hrow, r, hr, hid, hu, henabled, ⟨?_, ?_⟩, he⟩
    · rw [← he]
      rfl
    · rintro wanted ⟨⟩
  have hconnection : (Collector.start source).connectionID
      = r.connectionID := by
    rw [← he]
    exact hid.symm
  refine ⟨?_, fun held hheld => ?_, fun _ h => absurd h List.not_mem_nil,
    fun h => by cases h⟩
  · rw [hdb, hconnection]
    exact hdrawn r hr
  · rw [List.mem_singleton.mp hheld]
    exact ⟨hloaded source hmem hload, rfl, Nat.le_refl _⟩

theorem mem_of_desiredSource
    {sourceID : SourceID} {source : OwnedConnectedSource}
    (h : desiredSource desired sourceID = some source) :
    source ∈ desired
      ∧ source.connectedSource.source.sourceID = sourceID := by
  refine ⟨List.mem_reverse.mp (List.mem_of_find?_eq_some h), ?_⟩
  simpa using List.find?_some h

theorem desiredSource_isSome
    {source : OwnedConnectedSource} (h : source ∈ desired) :
    (desiredSource desired
      source.connectedSource.source.sourceID).isSome = true := by
  unfold desiredSource
  rw [List.find?_isSome]
  exact ⟨source, List.mem_reverse.mpr h, decide_eq_true rfl⟩

/-- What is under way was under way, or is selected now. -/
theorem desired_step {a : CollectorsAction}
    (h : desired ∈ (s.step configs providers a).desired) :
    desired ∈ s.desired
      ∨ a = .read true ∧ s.phase = .reading
        ∧ desired = desiredSources providers s.service.db := by
  have hgoes := goes_step configs providers s a
  unfold Collectors.desired at h
  cases hgoes with
  | stay _ hphase =>
      rw [hphase] at h
      exact Or.inl h
  | reading _ hphase =>
      rw [hphase] at h
      cases h
  | selecting _ hphase =>
      rw [hphase] at h
      cases h
  | read hbefore hphase =>
      rw [hphase] at h
      cases h
      exact Or.inr ⟨rfl, hbefore, rfl⟩
  | joining _ hsame hphase =>
      rw [hphase] at h
      left
      rw [hsame]
      exact h
  | joined _ hbefore hphase =>
      rw [hphase] at h
      left
      unfold Collectors.desired
      rw [hbefore]
      exact h

namespace Collectors.Inv

theorem init {service : Service} (hdrawn : service.db.Drawn) :
    (Collectors.init service).Inv where
  roster := Roster.inv_empty
  drawn := hdrawn
  sound := fun _ _ h => by cases h
  desired := fun _ h => by cases h
  versions := fun _ _ h => by cases h
  joining := fun _ _ h => by cases h
  joined := fun _ _ h => by cases h

/-- Entries and collectors go together. -/
theorem roster_step (h : s.Inv) (a : CollectorsAction) :
    (s.step configs providers a).roster.Inv collectorReading := by
  have hcancel : ∀ collector : RunningCollector,
      (s.cancel collector).roster.Inv collectorReading := by
    intro collector
    refine h.roster.mark (fun i k hk => ?_) (fun i k hk => ?_)
    · split <;> rfl
    · split <;> rfl
  cases a with
  | service => exact h.roster
  | tick =>
      unfold Collectors.step
      simp only
      split <;> exact h.roster
  | collector collectorID action =>
      unfold Collectors.step
      simp only
      split
      case h_1 => exact h.roster
      case h_2 k hk =>
        split
        case isTrue => exact h.roster
        case isFalse =>
          have hsame := Collector.same_step configs s.service k action
          refine h.roster.mark (fun i k₀ hk₀ => ?_) (fun i k₀ hk₀ => ?_)
          · split
            case isTrue heq =>
              subst heq
              have hkk : k = k₀ := Option.some.inj (hk.symm.trans hk₀)
              subst hkk
              show Collector.sourceID _ = k.sourceID
              unfold Collector.sourceID
              rw [hsame.source]
            case isFalse => rfl
          · split
            case isTrue heq =>
              subst heq
              have hkk : k = k₀ := Option.some.inj (hk.symm.trans hk₀)
              subst hkk
              exact hsame.joined
            case isFalse => rfl
  | refresh sourceID =>
      unfold Collectors.step
      simp only
      split
      case h_2 => exact h.roster
      case h_1 =>
        split
        case h_1 collector _ => exact hcancel collector
        case h_2 => exact h.roster
  | read succeeds =>
      unfold Collectors.step
      simp only
      split
      case h_2 => exact h.roster
      case h_1 => split <;> exact h.roster
  | stop sourceID =>
      unfold Collectors.step
      simp only
      split
      case h_2 => exact h.roster
      case h_1 =>
        split
        case h_2 => exact h.roster
        case h_1 collector _ =>
          split
          case isTrue => exact h.roster
          case isFalse => exact hcancel collector
  | join =>
      unfold Collectors.step
      simp only
      split
      case h_2 => exact h.roster
      case h_1 sourceID desired hphase =>
        split
        case h_2 => exact h.roster
        case h_1 collector hcollector =>
          split
          case isFalse => exact h.roster
          case isTrue =>
            refine h.roster.dismiss (· = sourceID) (fun i k hk => ?_)
              (fun i k hk => ?_)
            · split <;> rfl
            · obtain ⟨k', hk', hkey, hlive⟩ :=
                h.roster.entry sourceID collector hcollector
              split
              case isTrue heq =>
                subst heq
                have hkk : k' = k := Option.some.inj (hk'.symm.trans hk)
                subst hkk
                refine ⟨fun _ => Or.inr ⟨hkey, ?_⟩, fun _ => rfl⟩
                show (s.roster.running (collectorReading.key k')).map _ = _
                rw [hkey, Option.mem_def.mp hcollector]
                rfl
              case isFalse hne =>
                refine ⟨Or.inl, fun hor => hor.resolve_right ?_⟩
                rintro ⟨hk', hcurrent⟩
                have hk'' : collectorReading.key k = sourceID := hk'
                unfold Roster.current at hcurrent
                rw [hk'', Option.mem_def.mp hcollector] at hcurrent
                exact hne (Option.some.inj hcurrent).symm
  | start sourceID =>
      unfold Collectors.step
      simp only
      split
      case h_2 => exact h.roster
      case h_1 desired hphase =>
        split
        case h_2 => exact h.roster
        case h_1 source hsource hfree =>
          split
          case isFalse => exact h.roster
          case isTrue =>
            have hid := (mem_of_desiredSource hsource).2
            have hstart : s.roster.running
                source.connectedSource.source.sourceID = none := by
              rw [hid]
              exact hfree
            have hinv : (s.roster.start _ (fun collectorID =>
                ({ collectorID
                   tokenVersion :=
                    source.connectedSource.credentials.tokenVersion } :
                  RunningCollector)) (Collector.start source)).Inv
                collectorReading := h.roster.start hstart rfl rfl rfl
            exact hinv
  | finish =>
      unfold Collectors.step
      simp only
      split
      case h_2 => exact h.roster
      case h_1 => split <;> exact h.roster

/-- One step of anyone. -/
theorem step (h : s.Inv) (configs : Provider → Option RefreshConfig)
    (providers : List Provider) (a : CollectorsAction) :
    (s.step configs providers a).Inv where
  roster := h.roster_step a
  drawn := service_step (P := fun service => service.db.Drawn)
    (fun _ a h => h.step a) a h.drawn
  sound := by
    intro i k' hk'
    rcases worker_step a hk' with ⟨k, hk, hturns⟩ | hstarted
    · have hsound : k.Sound (s.step configs providers a).service :=
        service_step (P := fun service => k.Sound service)
          (fun _ a h => h.others configs a) a (h.sound i k hk)
      cases hturns with
      | keep => exact hsound
      | own action hservice =>
          rw [hservice]
          exact (h.sound i k hk).step action
      | cancel =>
          exact ⟨hsound.drawn, hsound.held, hsound.refreshes,
            hsound.rejected⟩
      | join =>
          exact ⟨hsound.drawn, hsound.held, hsound.refreshes,
            hsound.rejected⟩
    · obtain ⟨desired, hphase, hsource⟩ := hstarted.desired
      have hmem : desired ∈ s.desired := by
        unfold Collectors.desired
        rw [hphase]
        rfl
      rw [hstarted.started]
      exact service_step (P := fun service =>
          (Collector.start k'.source).Sound service)
        (fun _ a h => h.others configs a) a
        (h.desired desired hmem _ (mem_of_desiredSource hsource).1)
  desired := by
    intro desired hdesired source hmem
    rcases desired_step hdesired with hsame | ⟨ha, hphase, hread⟩
    · exact service_step (P := fun service =>
          (Collector.start source).Sound service)
        (fun _ a h => h.others configs a) a
        (h.desired desired hsame source hmem)
    · subst ha
      rw [hread] at hmem
      unfold Collectors.step
      simp only [hphase, if_true]
      exact start_sound configs h.drawn hmem
  versions := by
    intro sourceID collector hcollector k' hk'
    rcases running_step a hcollector with hsame | ⟨k, -, -, hversion, hk⟩
    · rcases worker_step a hk' with ⟨k, hk, hturns⟩ | hstarted
      · have hversion := h.versions sourceID collector hsame k hk
        unfold Collector.tokenVersion at hversion ⊢
        rw [hturns.source]
        exact hversion
      · obtain ⟨k, hk, -, -⟩ := h.roster.entry sourceID collector hsame
        have hnone := h.roster.fresh _ (Nat.le_of_eq hstarted.number.symm)
        exact absurd (hk.symm.trans hnone) (fun he => by cases he)
    · rw [Option.some.inj (hk'.symm.trans hk)]
      exact hversion.symm
  joining := by
    intro sourceID desired hphase collector hcollector k' hk'
    have hnot : s.phase = .joining sourceID desired →
        ∀ i k, ¬ Started s a i k := by
      intro hbefore i k hstarted
      obtain ⟨selected, hselected, -⟩ := hstarted.desired
      rw [hbefore] at hselected
      cases hselected
    have hgoes := goes_step configs providers s a
    cases hgoes with
    | stay _ hsame =>
        have hbefore := hsame.symm.trans hphase
        have hrunning := (running_step a hcollector).resolve_right
          fun ⟨k, hstarted, _⟩ => hnot hbefore _ k hstarted
        obtain ⟨k, hk, hturns⟩ := (worker_step a hk').resolve_right
          (hnot hbefore _ k')
        exact hturns.cancelled
          (h.joining sourceID desired hbefore collector hrunning k hk)
    | reading _ hafter => rw [hafter] at hphase; cases hphase
    | selecting _ hafter => rw [hafter] at hphase; cases hphase
    | read _ hafter => rw [hafter] at hphase; cases hphase
    | joined _ _ hafter => rw [hafter] at hphase; cases hphase
    | joining _ _ hafter hcancelled hroster =>
        rw [hafter] at hphase
        cases hphase
        rw [hroster] at hcollector hk'
        have hsame := Option.some.inj (hcancelled.symm.trans hcollector)
        obtain ⟨k, -, rfl⟩ := Roster.mem_mark.mp hk'
        rw [hsame, if_pos rfl]
  joined := by
    intro i k' hk' hjoined
    rcases worker_step a hk' with ⟨k, hk, hturns⟩ | hstarted
    · have hbefore := h.joined i k hk
      cases hturns with
      | keep => exact hbefore hjoined
      | own action _ =>
          have hsame := Collector.same_step configs s.service k action
          obtain ⟨hcancelled, hended⟩ :=
            hbefore (hsame.joined.symm.trans hjoined)
          exact ⟨hsame.cancelled.trans hcancelled, hsame.ended hended⟩
      | cancel => exact ⟨rfl, (hbefore hjoined).2⟩
      | join hjoins =>
          obtain ⟨sourceID, desired, collector, hphase, hcollector, rfl,
            hended⟩ := hjoins
          exact ⟨h.joining sourceID desired hphase collector hcollector k hk,
            hended⟩
    · rw [hstarted.started] at hjoined
      cases hjoined

end Collectors.Inv

-- =============================== unambiguous

/-- When a reconciliation reads the sources, no collected source is
selected through another connection at the version that its collector
was started with. -/
def Unambiguous (providers : List Provider) (s : Collectors)
    (a : CollectorsAction) : Prop :=
  a = .read true → s.phase = .reading →
    ∀ sourceID, ∀ collector ∈ s.roster.running sourceID,
    ∀ k ∈ s.roster.workers collector.collectorID,
    ∀ source ∈ desiredSource (desiredSources providers s.service.db)
        sourceID,
      source.connectedSource.credentials.tokenVersion
          = collector.tokenVersion →
        source.connectedSource.source.connectionID = k.connectionID

/-- An entry that is up to date serves the selected connection. -/
def Serving (s : Collectors) : Prop :=
  ∀ desired ∈ s.desired,
    ∀ sourceID, ∀ collector ∈ s.roster.running sourceID,
    ∀ k ∈ s.roster.workers collector.collectorID,
    ∀ source ∈ desiredSource desired sourceID,
      source.connectedSource.credentials.tokenVersion
          = collector.tokenVersion →
        source.connectedSource.source.connectionID = k.connectionID

/-- One step, where reads are unambiguous. -/
theorem Serving.step (h : Serving s) (hinv : s.Inv) (a : CollectorsAction)
    (hunambiguous : Unambiguous providers s a) :
    Serving (s.step configs providers a) := by
  intro desired hdesired sourceID collector hcollector k' hk' source hsource
    hversion
  rcases running_step a hcollector with hsame | ⟨k₀, hstarted, hid, -, hk₀⟩
  · have horigin : ∃ k ∈ s.roster.workers collector.collectorID,
        k'.source = k.source := by
      rcases worker_step a hk' with ⟨k, hk, hturns⟩ | hstarted
      · exact ⟨k, hk, hturns.source⟩
      · obtain ⟨k, hk, -, -⟩ := hinv.roster.entry sourceID collector hsame
        have hnone := hinv.roster.fresh _
          (Nat.le_of_eq hstarted.number.symm)
        exact absurd (hk.symm.trans hnone) (fun he => by cases he)
    obtain ⟨k, hk, hk'source⟩ := horigin
    have hconnection : k'.connectionID = k.connectionID := by
      unfold Collector.connectionID
      rw [hk'source]
    rw [hconnection]
    rcases desired_step hdesired with hbefore | ⟨ha, hphase, hread⟩
    · exact h desired hbefore sourceID collector hsame k hk source hsource
        hversion
    · subst hread
      exact hunambiguous ha hphase sourceID collector hsame k hk source
        hsource hversion
  · obtain ⟨selected, hphase, hselected⟩ := hstarted.desired
    have hkk : k₀ = k' := Option.some.inj (hk₀.symm.trans hk')
    subst hkk
    have hbefore : s.desired = some selected := by
      unfold Collectors.desired
      rw [hphase]
    rcases desired_step hdesired with hstill | ⟨-, hreading, -⟩
    · rw [hbefore] at hstill
      cases hstill
      rw [hid] at hselected
      have heq : source = k₀.source :=
        Option.some.inj (hsource.symm.trans hselected)
      rw [heq]
      rfl
    · rw [hreading] at hphase
      cases hphase

-- ====================================== runs

/-- The service after some steps; the database was written before. -/
abbrev collectorsTo (configs : Provider → Option RefreshConfig)
    (providers : List Provider) (before : List Action)
    (acts : List CollectorsAction) : Collectors :=
  Run.run (Collectors.step configs providers)
    (.init (runTo configs before)) acts

theorem inv_run (configs : Provider → Option RefreshConfig)
    (providers : List Provider) (before : List Action)
    (acts : List CollectorsAction) :
    (collectorsTo configs providers before acts).Inv :=
  Run.run_preserves (Collectors.Inv.init (drawn_run configs before))
    (fun _ a h => h.step configs providers a) acts

theorem serving_run {before : List Action} {acts : List CollectorsAction}
    (h : Run.Along (Collectors.step configs providers)
      (Unambiguous providers) (.init (runTo configs before)) acts) :
    Serving (collectorsTo configs providers before acts) := by
  have hboth := h.preserves (P := fun s => s.Inv ∧ Serving s)
    ⟨Collectors.Inv.init (drawn_run configs before), ?_⟩
    (fun s a hs ha => ⟨hs.1.step configs providers a,
      hs.2.step hs.1 a ha⟩) acts [] (List.append_nil acts).symm
  · exact hboth.2
  · intro desired hdesired
    cases hdesired

/-- What a reconciliation is for: every selected source has a collector
that was started with the selected credentials, and the others that the
source ever had were cancelled and have returned. -/
def Collectors.Serves (s : Collectors)
    (desired : List OwnedConnectedSource) : Prop :=
  ∀ sourceID, ∀ source ∈ desiredSource desired sourceID,
    ∃ collector ∈ s.roster.running sourceID,
    ∃ k ∈ s.roster.workers collector.collectorID,
      k.connectionID = source.connectedSource.source.connectionID
      ∧ k.tokenVersion = source.connectedSource.credentials.tokenVersion
      ∧ ∀ i, ∀ k' ∈ s.roster.workers i, k'.sourceID = sourceID →
        i ≠ collector.collectorID → k'.cancelled = true ∧ k'.ended = true

/-- The reconciliation has nothing left to do. -/
def Collectors.Reconciled (s : Collectors)
    (desired : List OwnedConnectedSource) : Prop :=
  s.phase = .reconciling desired ∧ s.AllUpToDate desired
    ∧ s.AllStarted desired

instance (s : Collectors) (desired : List OwnedConnectedSource) :
    Decidable (s.Reconciled desired) :=
  inferInstanceAs (Decidable (_ ∧ _))

/-- A completed reconciliation serves what it selected. -/
theorem Collectors.Inv.serves (h : s.Inv) (hserving : Serving s)
    (hdone : s.Reconciled desired) :
    s.Serves desired := by
  obtain ⟨hphase, hcurrent, hstarted⟩ := hdone
  intro sourceID source hsource
  have hdesired : desired ∈ s.desired := by
    unfold Collectors.desired
    rw [hphase]
    rfl
  obtain ⟨hmem, hid⟩ := mem_of_desiredSource hsource
  obtain ⟨collector, hcollector⟩ :=
    Option.isSome_iff_exists.mp (hstarted source hmem)
  rw [hid] at hcollector
  obtain ⟨k, hk, hkey, hlive⟩ :=
    h.roster.entry sourceID collector hcollector
  have hversion : source.connectedSource.credentials.tokenVersion
      = collector.tokenVersion := by
    have huptodate := hcurrent sourceID (h.roster.mem_keys hcollector)
      collector hcollector
    unfold UpToDate at huptodate
    rw [Option.mem_def.mp hsource] at huptodate
    simpa using huptodate
  refine ⟨collector, hcollector, k, hk, ?_, ?_, ?_⟩
  · exact (hserving desired hdesired sourceID collector hcollector k hk
      source hsource hversion).symm
  · exact (h.versions sourceID collector hcollector k hk).trans
      hversion.symm
  · intro i k' hk' hk'id hne
    refine h.joined i k' hk' ?_
    by_contra hnot
    have hcurrent' := h.roster.others i k' hk'
      (Bool.eq_false_iff.mpr hnot)
    have hk'key : collectorReading.key k' = sourceID := hk'id
    unfold Roster.current at hcurrent'
    rw [hk'key, hcollector] at hcurrent'
    exact hne (Option.some.inj hcurrent').symm

-- ================================ completing

/-- The steps of a reconciliation itself: those of its loops, and the
return of a collector that it waits for. -/
def OfPass : CollectorsAction → Prop
  | .stop _ | .join | .start _ | .collector _ .return => True
  | _ => False

/-- An entry that is not up to date is cancelled, and stays until its
collector has returned. -/
theorem stop_stale (configs : Provider → Option RefreshConfig)
    (providers : List Provider) {sourceID : SourceID}
    {collector : RunningCollector} (hphase : s.phase = .reconciling desired)
    (hcollector : collector ∈ s.roster.running sourceID)
    (hstale : ¬ UpToDate desired sourceID collector) :
    (s.step configs providers (.stop sourceID)).phase
        = .joining sourceID (some desired)
      ∧ (s.step configs providers (.stop sourceID)).roster.running
        = s.roster.running := by
  have hentry : s.roster.running sourceID = some collector := hcollector
  unfold Collectors.step
  simp only [hphase, hentry, if_neg hstale]
  exact ⟨trivial, rfl⟩

/-- A collector that has been cancelled returns, and its entry goes. -/
theorem Collectors.Inv.joins (h : s.Inv)
    (configs : Provider → Option RefreshConfig)
    (providers : List Provider) {sourceID : SourceID}
    {collector : RunningCollector}
    (hphase : s.phase = .joining sourceID (some desired))
    (hcollector : collector ∈ s.roster.running sourceID) :
    let s' := Run.run (Collectors.step configs providers) s
      [.collector collector.collectorID .return, .join]
    s'.phase = .reconciling desired
      ∧ s'.roster.running
        = fun id => if id = sourceID then none else s.roster.running id := by
  obtain ⟨k, hk, -, -⟩ := h.roster.entry sourceID collector hcollector
  have hcancelled := h.joining sourceID (some desired) hphase collector
    hcollector k hk
  -- the state after the collector's return
  obtain ⟨s₁, hs₁⟩ : ∃ s₁, s.step configs providers
      (.collector collector.collectorID .return) = s₁ := ⟨_, rfl⟩
  have hreturned : s₁.phase = s.phase
      ∧ s₁.roster.running = s.roster.running
      ∧ (s₁.roster.workers collector.collectorID).any (·.ended) = true := by
    subst hs₁
    have hworker : s.roster.workers collector.collectorID = some k := hk
    unfold Collectors.step
    simp only [hworker]
    by_cases hended : k.ended = true
    case pos =>
      rw [if_pos hended]
      refine ⟨rfl, rfl, ?_⟩
      rw [hworker]
      exact hended
    case neg =>
      rw [if_neg hended]
      refine ⟨rfl, rfl, ?_⟩
      unfold Collector.step Roster.mark
      simp only [hcancelled, Bool.true_or, if_true, hworker]
      rfl
  obtain ⟨hphase₁, hrunning, hended⟩ := hreturned
  have hentry : s₁.roster.running sourceID = some collector := by
    rw [hrunning]
    exact hcollector
  rw [Run.run_cons, hs₁, Run.run_cons, Run.run_nil]
  unfold Collectors.step
  simp only [hphase₁, hphase, hentry, hended, if_true]
  refine ⟨rfl, ?_⟩
  show (fun id => if id = sourceID then none else s₁.roster.running id) = _
  rw [hrunning]

/-- A reconciliation with nothing to do for a list of sources: what is
there of them is up to date, and no entry is new. -/
structure Cleared (desired : List OwnedConnectedSource)
    (sourceIDs : List SourceID) (s s' : Collectors) : Prop where
  inv : s'.Inv
  phase : s'.phase = .reconciling desired
  current : ∀ sourceID ∈ sourceIDs,
    ∀ collector ∈ s'.roster.running sourceID,
      UpToDate desired sourceID collector
  kept : ∀ sourceID, ∀ collector ∈ s'.roster.running sourceID,
    collector ∈ s.roster.running sourceID

/-- The first loop can be gone through, one source after the other. -/
theorem Collectors.Inv.clears (h : s.Inv)
    (configs : Provider → Option RefreshConfig) (providers : List Provider)
    (hphase : s.phase = .reconciling desired) (sourceIDs : List SourceID) :
    ∃ acts, (∀ a ∈ acts, OfPass a) ∧ Cleared desired sourceIDs s
      (Run.run (Collectors.step configs providers) s acts) := by
  induction sourceIDs with
  | nil =>
      exact ⟨[], fun _ ha => absurd ha List.not_mem_nil, h, hphase,
        fun _ hid => absurd hid List.not_mem_nil, fun _ _ hc => hc⟩
  | cons sourceID sourceIDs ih =>
      obtain ⟨acts, hown, hcleared⟩ := ih
      obtain ⟨t, ht⟩ : ∃ t, Run.run (Collectors.step configs providers) s
          acts = t := ⟨_, rfl⟩
      rw [ht] at hcleared
      by_cases hstale : ∃ collector ∈ t.roster.running sourceID,
          ¬ UpToDate desired sourceID collector
      case neg =>
        refine ⟨acts, hown, ?_⟩
        rw [ht]
        refine ⟨hcleared.inv, hcleared.phase, fun id hid => ?_,
          hcleared.kept⟩
        rcases List.mem_cons.mp hid with rfl | hid
        · intro collector hcollector
          by_contra hnot
          exact hstale ⟨collector, hcollector, hnot⟩
        · exact hcleared.current id hid
      case pos =>
        obtain ⟨collector, hcollector, hnot⟩ := hstale
        obtain ⟨hjoining, hentries⟩ := stop_stale configs providers
          hcleared.phase hcollector hnot
        have hinv := hcleared.inv.step configs providers (.stop sourceID)
        obtain ⟨t', ht'⟩ : ∃ t', t.step configs providers (.stop sourceID)
            = t' := ⟨_, rfl⟩
        rw [ht'] at hjoining hentries hinv
        have hentry : collector ∈ t'.roster.running sourceID := by
          rw [hentries]
          exact hcollector
        obtain ⟨hafter, hrunning⟩ := hinv.joins configs providers
          hjoining hentry
        refine ⟨acts ++ .stop sourceID ::
          [.collector collector.collectorID .return, .join], ?_, ?_⟩
        · intro a ha
          rcases List.mem_append.mp ha with ha | ha
          · exact hown a ha
          · simp only [List.mem_cons, List.not_mem_nil, or_false] at ha
            rcases ha with rfl | rfl | rfl <;> trivial
        · rw [Run.run_append, ht, Run.run_cons, ht']
          have hleft : ∀ id, ∀ c ∈ (Run.run (Collectors.step configs
              providers) t' [.collector collector.collectorID .return,
                .join]).roster.running id,
              id ≠ sourceID ∧ c ∈ t.roster.running id := by
            intro id c hc
            rw [hrunning] at hc
            by_cases hid : id = sourceID
            · simp only [if_pos hid] at hc
              cases hc
            · simp only [if_neg hid] at hc
              rw [hentries] at hc
              exact ⟨hid, hc⟩
          refine ⟨Run.run_preserves hinv
            (fun _ a h => h.step configs providers a) _, hafter, ?_, ?_⟩
          · intro id hid c hc
            obtain ⟨hne, hc⟩ := hleft id c hc
            rcases List.mem_cons.mp hid with heq | hid
            · exact absurd heq hne
            · exact hcleared.current id hid c hc
          · exact fun id c hc => hcleared.kept id c (hleft id c hc).2

/-- The second loop can be gone through. -/
theorem all_started (configs : Provider → Option RefreshConfig)
    (providers : List Provider) (hphase : s.phase = .reconciling desired)
    (hcurrent : ∀ sourceID, ∀ collector ∈ s.roster.running sourceID,
      UpToDate desired sourceID collector)
    {sources : List OwnedConnectedSource}
    (hsources : ∀ source ∈ sources, source ∈ desired) :
    ∃ acts, (∀ a ∈ acts, OfPass a)
      ∧ let s' := Run.run (Collectors.step configs providers) s acts
        s'.phase = .reconciling desired
        ∧ (∀ sourceID, ∀ collector ∈ s'.roster.running sourceID,
          UpToDate desired sourceID collector)
        ∧ ∀ source ∈ sources, (s'.roster.running
          source.connectedSource.source.sourceID).isSome = true := by
  induction sources with
  | nil =>
      exact ⟨[], fun _ ha => absurd ha List.not_mem_nil, hphase, hcurrent,
        fun _ hsource => absurd hsource List.not_mem_nil⟩
  | cons source sources ih =>
      obtain ⟨acts, hown, hafter, huptodate, hstarted⟩ :=
        ih fun other hother => hsources other (List.mem_cons_of_mem _ hother)
      obtain ⟨t, ht⟩ : ∃ t, Run.run (Collectors.step configs providers) s
          acts = t := ⟨_, rfl⟩
      rw [ht] at hafter huptodate hstarted
      cases hrunning : t.roster.running
          source.connectedSource.source.sourceID with
      | some collector =>
          refine ⟨acts, hown, ?_⟩
          rw [ht]
          refine ⟨hafter, huptodate, fun other hother => ?_⟩
          rcases List.mem_cons.mp hother with rfl | hother
          · rw [hrunning]
            rfl
          · exact hstarted other hother
      | none =>
          have hexists := desiredSource_isSome
            (hsources source List.mem_cons_self)
          obtain ⟨selected, hselected⟩ :=
            Option.isSome_iff_exists.mp hexists
          have hid := (mem_of_desiredSource hselected).2
          have hall : t.AllUpToDate desired := fun id _ => huptodate id
          have hstart : t.step configs providers
              (.start source.connectedSource.source.sourceID)
              = t.start selected := by
            unfold Collectors.step
            simp only [hafter, hselected, hrunning, if_pos hall]
          refine ⟨acts ++ [.start source.connectedSource.source.sourceID],
            fun a ha => ?_, ?_⟩
          · rcases List.mem_append.mp ha with ha | ha
            · exact hown a ha
            · rw [List.mem_singleton.mp ha]
              trivial
          · rw [Run.run_snoc, ht, hstart]
            have hentries : (t.start selected).roster.running
                = Function.update t.roster.running
                  selected.connectedSource.source.sourceID
                  (some ⟨t.roster.started,
                    selected.connectedSource.credentials.tokenVersion⟩) :=
              rfl
            refine ⟨hafter, fun id collector hcollector => ?_,
              fun other hother => ?_⟩
            · rw [hentries] at hcollector
              by_cases hsame
                  : id = selected.connectedSource.source.sourceID
              · subst hsame
                rw [Function.update_self] at hcollector
                cases hcollector
                unfold UpToDate
                rw [hid, hselected]
                exact decide_eq_true rfl
              · rw [Function.update_of_ne hsame] at hcollector
                exact huptodate id collector hcollector
            · rw [hentries]
              by_cases hsame : other.connectedSource.source.sourceID
                  = selected.connectedSource.source.sourceID
              · rw [hsame, Function.update_self]
                rfl
              · rw [Function.update_of_ne hsame]
                rcases List.mem_cons.mp hother with rfl | hother
                · exact absurd hid.symm hsame
                · exact hstarted other hother

/-- A reconciliation can always be brought to its end by its own steps
and the return of what it cancelled, whatever the collectors did. -/
theorem Collectors.Inv.completes (h : s.Inv)
    (configs : Provider → Option RefreshConfig) (providers : List Provider)
    (hphase : s.phase = .reconciling desired) :
    ∃ acts, (∀ a ∈ acts, OfPass a)
      ∧ (Run.run (Collectors.step configs providers) s acts).Reconciled
        desired := by
  obtain ⟨stops, hstops, hcleared⟩ := h.clears configs providers hphase
    (s.roster.keys collectorReading)
  have hcurrent : ∀ sourceID, ∀ collector ∈ (Run.run (Collectors.step
      configs providers) s stops).roster.running sourceID,
      UpToDate desired sourceID collector := by
    intro sourceID collector hcollector
    have hkept := hcleared.kept sourceID collector hcollector
    exact hcleared.current sourceID (h.roster.mem_keys hkept) collector
      hcollector
  obtain ⟨starts, hstarts, hafter, huptodate, hstarted⟩ :=
    all_started configs providers
      hcleared.phase hcurrent (fun _ hsource => hsource)
  refine ⟨stops ++ starts, fun a ha => ?_, ?_⟩
  · rcases List.mem_append.mp ha with ha | ha
    · exact hstops a ha
    · exact hstarts a ha
  · rw [Run.run_append]
    exact ⟨hafter, fun id _ => huptodate id, hstarted⟩

-- ================================== rejected

/-- A source whose connection rejected a collector is selected with a
later version only. -/
theorem Collectors.Inv.rejected (h : s.Inv) {i : Nat}
    (hk : k ∈ s.roster.workers i) (hrejected : k.rejected = true)
    {source : OwnedConnectedSource}
    (hsource : source ∈ getAllEnabledSources s.service.db)
    (hid : source.connectedSource.source.connectionID = k.connectionID) :
    k.tokenVersion < source.connectedSource.credentials.tokenVersion := by
  obtain ⟨row, -, r, hr, hrid, -, -, hstatus, he⟩ :=
    mem_selectSources.mp hsource
  rw [← he] at hid ⊢
  have hsuperseded := (h.sound i k hk).rejected hrejected r hr
    (hrid.trans hid)
  rcases hsuperseded with hlt | ⟨-, hmarked⟩
  · exact hlt
  · rw [hstatus] at hmarked
    cases hmarked

/-- A row becomes connected together with a later version. -/
theorem connected_step {service : Service} (hdrawn : service.db.Drawn)
    {a : Action} {r r' : Connection} (hr : r ∈ service.db.connections)
    (hr' : r' ∈ (service.step configs a).db.connections)
    (hid : r'.connectionID = r.connectionID)
    (hbefore : r.status ≠ .connected) (hafter : r'.status = .connected) :
    r.tokenVersion < r'.tokenVersion := by
  rcases origin_step a hr' with ⟨origin, horigin, hevolves⟩ | hcreated
  · have heq : origin = r :=
      Table.eq_of_key horigin hr (hevolves.id.symm.trans hid)
    subst heq
    cases hevolves with
    | keep => exact absurd hafter hbefore
    | reconnect => exact Nat.lt_succ_self _
    | renew => exact Nat.lt_succ_self _
    | mark => cases hafter
  · have hlt := hdrawn r hr
    rw [← hid, hcreated.id] at hlt
    exact absurd hlt (Nat.lt_irrefl _)

/-- The collectors of a service on every run: a source never has two
that run; a completed reconciliation serves what it selected, if its
reads were unambiguous; a connection that rejected a collector is
selected with a later version only, as a row becomes connected together
with one. And a reconciliation that has begun can be completed. -/
theorem collectors_supervised
    (configs : Provider → Option RefreshConfig)
    (providers : List Provider) (before : List Action)
    (acts : List CollectorsAction) :
    (∀ i j, ∀ k ∈ (collectorsTo configs providers before
        acts).roster.workers i,
      ∀ k' ∈ (collectorsTo configs providers before acts).roster.workers j,
      k.ended = false → k'.ended = false → k.sourceID = k'.sourceID →
      i = j)
    ∧ (Run.Along (Collectors.step configs providers)
        (Unambiguous providers) (.init (runTo configs before)) acts →
      ∀ desired, (collectorsTo configs providers before acts).Reconciled
        desired →
      (collectorsTo configs providers before acts).Serves desired)
    ∧ (∀ i, ∀ k ∈ (collectorsTo configs providers before
        acts).roster.workers i, k.rejected = true →
      ∀ source ∈ getAllEnabledSources (collectorsTo configs providers
        before acts).service.db,
      source.connectedSource.source.connectionID = k.connectionID →
      k.tokenVersion < source.connectedSource.credentials.tokenVersion)
    ∧ (∀ a, ∀ r ∈ (collectorsTo configs providers before
        acts).service.db.connections,
      ∀ r' ∈ ((collectorsTo configs providers before acts).service.step
        configs a).db.connections,
      r'.connectionID = r.connectionID → r.status ≠ .connected →
      r'.status = .connected → r.tokenVersion < r'.tokenVersion)
    ∧ ∀ desired, (collectorsTo configs providers before acts).phase
        = .reconciling desired →
      ∃ more, (∀ a ∈ more, OfPass a)
        ∧ (collectorsTo configs providers before
          (acts ++ more)).Reconciled desired := by
  have hinv := inv_run configs providers before acts
  refine ⟨?_, ?_, ?_, ?_, ?_⟩
  · intro i j k hk k' hk' hrunning hrunning' hid
    have hlive : ∀ i, ∀ k ∈ (collectorsTo configs providers before
        acts).roster.workers i, k.ended = false →
        collectorReading.dismissed k = false := by
      intro i k hk hrunning
      rw [Bool.eq_false_iff]
      intro hjoined
      have hended := (hinv.joined i k hk hjoined).2
      rw [hrunning] at hended
      cases hended
    exact hinv.roster.unique hk hk' (hlive i k hk hrunning)
      (hlive j k' hk' hrunning') hid
  · exact fun halong desired hdone =>
      hinv.serves (serving_run halong) hdone
  · exact fun i k hk hrejected source hsource hid =>
      hinv.rejected hk hrejected hsource hid
  · exact fun a r hr r' hr' hid hbefore hafter =>
      connected_step hinv.drawn hr hr' hid hbefore hafter
  · intro desired hphase
    obtain ⟨more, hown, hreconciled⟩ := hinv.completes configs providers hphase
    refine ⟨more, hown, ?_⟩
    unfold collectorsTo
    rw [Run.run_append]
    exact hreconciled

-- =========================== another account

/-- A Boosty account whose blog is `streamer`. -/
def boostyAccount (providerUserID : String) : SaveConnection where
  provider := .boosty
  providerUserID
  displayName := "streamer"
  accessToken := "access"
  refreshToken := "refresh"
  oauthDeviceID := "device"
  accessTokenExpiresAt := none
  scopes := []

/-- The blog as a chat source. -/
def boostyBlog : SaveSource where
  provider := .boosty
  providerSourceID := "streamer"
  displayName := "streamer"
  sourceURL := "https://boosty.to/streamer/streams/video_stream"

/-- The blog as its first account connected it. -/
def firstSource : ConnectedSource where
  source :=
    { sourceID := 0, connectionID := 0, provider := .boosty
      providerSourceID := "streamer", displayName := "streamer"
      sourceURL := "https://boosty.to/streamer/streams/video_stream"
      position := 0 }
  credentials :=
    { accessToken := "access", refreshToken := "refresh"
      deviceID := "device", expiresAt := none, scopes := []
      tokenVersion := 1 }
  connectionStatus := .connected

/-- The provider rejects the account of a blog for good, its collector
returns, and another account of the owner connects the same blog before
the next reconciliation. -/
def repointedRun : List CollectorsAction :=
  [.service (.connect 1 (boostyAccount "1") boostyBlog), .read true,
   .start 0, .finish, .collector 0 (.reject firstSource),
   .collector 0 (.mark 0), .collector 0 .return,
   .service (.connect 1 (boostyAccount "2") boostyBlog), .tick, .read true]

/-- The state that it ends in: the reconciliation has selected the
source through the second connection. -/
def repointed : Collectors :=
  collectorsTo (fun _ => none) [.boosty] [] repointedRun

/-- The reconciliation is content with the collector that has returned,
which was started with the first connection. -/
theorem repointed_kept :
    repointed.Reconciled (desiredSources [.boosty] repointed.service.db)
      ∧ ¬ repointed.Serves
        (desiredSources [.boosty] repointed.service.db) := by
  refine ⟨by decide, fun hserves => ?_⟩
  have hsource : (desiredSource (desiredSources [.boosty]
      repointed.service.db) 0).map (·.connectedSource.source.connectionID)
      = some 1 := by decide
  obtain ⟨source, hfound, hconnection⟩ := Option.map_eq_some_iff.mp hsource
  obtain ⟨collector, hcollector, k, hk, hserved, -⟩ :=
    hserves 0 source hfound
  have hentry : repointed.roster.running 0 = some ⟨0, 1⟩ := by decide
  rw [Option.some.inj (hcollector.symm.trans hentry)] at hk
  have hworker : (repointed.roster.workers 0).map
      (fun k => (k.connectionID, k.ended)) = some (0, true) := by decide
  rw [Option.mem_def.mp hk] at hworker
  have hid : k.connectionID = 0 :=
    congrArg Prod.fst (Option.some.inj hworker)
  rw [hconnection, hid] at hserved
  cases hserved

end StreamBrew.Chat
