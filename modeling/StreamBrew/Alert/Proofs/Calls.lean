/-
Every store call is a sequence of effects, under the grant that its
kind of call has.

`Action.grant` is the whole division of labour between the calls: only
a claim for preparation counts an attempt, only a completed
preparation attaches speech, only seven calls return a claimed
playback to the queue and only from the player they concern, only a
start starts, and only the sweep and the deletion of a file touch
history. `apply_steps` is checked call by call; the results about runs
use the grant of a call and never its statements.
-/
import StreamBrew.Alert.System
import StreamBrew.Alert.Proofs.Invariant
import StreamBrew.Alert.Proofs.Statements

namespace StreamBrew.Alert

open Relational

-- ==================================== grants

/-- The playback may be taken from the player that the caller names. -/
def Playback.Surrendered (tokenHash : TokenHash) (playerID : PlayerID)
    (generation : Int) (now : Time) (db : Db) (r : Playback) : Prop :=
  r.Returnable now
    ∧ ∃ player, db.player? tokenHash playerID generation = some player
      ∧ r.AssignedTo player.userID playerID generation

/-- The caller's player row has run out its lease. -/
def LeaseOver (tokenHash : TokenHash) (playerID : PlayerID)
    (generation : Int) (now : Time) (db : Db) : Prop :=
  ∃ player, db.player? tokenHash playerID generation = some player
    ∧ player.leaseExpiresAt ≤ now

/-- So it is found by the polls, which read the configuration first. -/
def Reclaims (tokenHash : TokenHash) (playerID : PlayerID)
    (generation : Int) (now : Time) (db : Db) : Prop :=
  ∃ player configuration,
    db.player? tokenHash playerID generation = some player
      ∧ db.configurations.get? player.userID = some configuration
      ∧ player.leaseExpiresAt ≤ now

/-- The playback belongs to a lapsed predecessor of the opening player. -/
def Playback.Inherited (tokenHash : TokenHash) (now : Time) (db : Db)
    (r : Playback) : Prop :=
  r.Returnable now
    ∧ ∃ overlay current,
      db.overlays.find? (fun o => o.tokenHash = tokenHash) = some overlay
      ∧ db.players.get? overlay.userID = some current
      ∧ current.leaseExpiresAt ≤ now
      ∧ r.AssignedTo overlay.userID current.playerID current.generation

/-- The claimed playbacks a call returns to the queue. -/
def Action.Returns (db : Db) : Action → Playback → Prop
  | .openPlayer tokenHash _ now, r => r.Inherited tokenHash now db
  | .heartbeat tokenHash playerID generation active visible now, r =>
      (LeaseOver tokenHash playerID generation now db
        ∨ active = false ∨ visible = false)
      ∧ r.Surrendered tokenHash playerID generation now db
  | .releasePlayer tokenHash playerID generation now, r =>
      r.Surrendered tokenHash playerID generation now db
  | .setOverlayTokenHash userID tokenHash now, r =>
      (¬ db.overlays.Exists fun o =>
        o.tokenHash = tokenHash ∧ o.userID ≠ userID)
      ∧ r.userID = userID ∧ r.Returnable now
  | .streamState tokenHash playerID generation now, r
  | .claimPlayback tokenHash playerID generation now _, r =>
      Reclaims tokenHash playerID generation now db
      ∧ r.Surrendered tokenHash playerID generation now db
  | .finishPlayback tokenHash playerID generation playbackID .interrupted
      now, r =>
      r.HeldBy tokenHash playerID generation playbackID now db
      ∧ r.Returnable now
  | _, _ => False

/-- The call queues a playback for the user. -/
def Action.Queues (userID : UserID) : Action → Prop
  | .enqueueIncoming u _ _ _ _ | .createTest u _ _ | .replay u _ _ _ =>
      u = userID
  | _ => False

/-- What a call may do beyond the arrows that are open to all. -/
def Action.grant (db : Db) (a : Action) : Grant where
  prepare r := ∃ now locked, a = .claimPreparation now locked
    ∧ r.Preparable now
  speak r := ∃ preparation media assetID now,
    a = .completePreparation preparation media assetID now
      ∧ r.PreparedBy preparation
  back r := r ∈ db.playbacks ∧ a.Returns db r
  start r := ∃ tokenHash playerID generation playbackID now,
    a = .startPlayback tokenHash playerID generation playbackID now
      ∧ r.HeldBy tokenHash playerID generation playbackID now db
      ∧ r.status = .playing
  release _ := (∃ userID assetID, a = .deleteAsset userID assetID)
    ∨ a = .releaseHistoryMedia
  retire r := ∃ now, a = .pruneHistory now ∧ r.Retired now db
  queue userID := a.Queues userID
  incoming donationID := ∃ userID source acceptedAt draw,
    a = .enqueueIncoming userID donationID source acceptedAt draw
  donate donation := a = .insertDonation donation
  rotate userID tokenHash := ∃ now,
    a = .setOverlayTokenHash userID tokenHash now

variable {g : Grant} {db db' : Db}

/-- One statement is a call. -/
private theorem Effect.steps (h : Effect g db db') : Steps g db db' :=
  .single h

-- ============================= configuration

/-- Settings touch no playback. -/
theorem steps_updateSettings (hi : Inv db) (userID : UserID)
    (settings : Settings) :
    Steps g db (updateSettings userID settings db).2 := by
  unfold updateSettings
  simp only
  split
  case h_1 => exact .refl
  case h_2 =>
    have hensure := effect_ensureConfiguration (g := g) hi userID
    split
    case isFalse => exact .refl
    case isTrue hvalid =>
      refine hensure.steps.tail ?_
      refine effect_configure (hi.effect hensure) fun c _ hc a ha => Or.inr ?_
      have hc' : c.userID = userID := hc
      rw [hc']
      rcases ha with ha | ha
      · obtain ⟨asset, hmem, hid, hu, -⟩ := hvalid.1 a ha
        exact ⟨asset, hmem, hid, hu⟩
      · obtain ⟨asset, hmem, hid, hu, -⟩ := hvalid.2 a ha
        exact ⟨asset, hmem, hid, hu⟩

theorem steps_setPaused (hi : Inv db) (userID : UserID) (paused : Bool) :
    Steps g db (setPaused userID paused db).2 := by
  have hensure := effect_ensureConfiguration (g := g) hi userID
  refine hensure.steps.tail ?_
  exact effect_configure (hi.effect hensure) fun c _ _ a ha => Or.inl ha

/-- A new file touches no playback. -/
theorem steps_saveAsset (hi : Inv db) (userID : UserID)
    (kind : AssetKind) (media : Media) (assetID : AssetID) (now : Time) :
    Steps g db (saveAsset userID kind media assetID now db).2 := by
  unfold saveAsset
  simp only
  have hensure := effect_ensureConfiguration (g := g) hi userID
  have hi₁ := hi.effect hensure
  split
  case h_1 => exact .refl
  case h_2 saved db₂ hins =>
    obtain ⟨hsave, hhas, -⟩ := effect_insertAsset (g := g) hi₁ hins
    have hi₂ := hi₁.effect hsave
    have hsteps := hensure.steps.tail hsave
    cases kind with
    | tts => exact .refl
    | image =>
        refine hsteps.tail (effect_configure hi₂ fun c _ hc a ha => ?_)
        have hc' : c.userID = userID := hc
        rcases ha with ha | ha
        · cases ha
          exact Or.inr (hc' ▸ hhas)
        · exact Or.inl (Or.inr ha)
    | sound =>
        refine hsteps.tail (effect_configure hi₂ fun c _ hc a ha => ?_)
        have hc' : c.userID = userID := hc
        rcases ha with ha | ha
        · exact Or.inl (Or.inl ha)
        · cases ha
          exact Or.inr (hc' ▸ hhas)

/-- A reference with one file taken out of it. -/
private theorem keptOrDropped_deselect (assetID : AssetID)
    (reference : Option AssetID) :
    KeptOrDropped reference
      (if reference = some assetID then none else reference) := by
  by_cases h : reference = some assetID
  · exact Or.inr (if_pos h)
  · exact Or.inl (if_neg h)

/-- A deselected file is not selected, and no other file becomes so. -/
theorem Configuration.deselect_selects {assetID a : AssetID}
    {c : Configuration} (h : (c.deselect assetID).Selects a) :
    c.Selects a ∧ a ≠ assetID := by
  rcases h with h | h
  · unfold Configuration.deselect at h
    simp only at h
    split at h
    case isTrue => cases h
    case isFalse hne => exact ⟨Or.inl h, fun he => hne (he ▸ h)⟩
  · unfold Configuration.deselect at h
    simp only at h
    split at h
    case isTrue => cases h
    case isFalse hne => exact ⟨Or.inr h, fun he => hne (he ▸ h)⟩

/-- Deleting a file releases references to it, and does nothing else to
playbacks. -/
theorem steps_deleteAsset (hi : Inv db) (userID : UserID)
    (assetID : AssetID) (hg : ∀ r, g.release r) :
    Steps g db (deleteAsset userID assetID db).2 := by
  unfold deleteAsset
  simp only
  have hensure := effect_ensureConfiguration (g := g) hi userID
  set ensured := ensureConfiguration userID db
  have hi₁ := hi.effect hensure
  split
  case isFalse => exact .refl
  case isTrue =>
    set db₂ : Db := { ensured with
      configurations := ensured.configurations.update
        (fun c => c.userID = userID) (Configuration.deselect assetID)
        (Table.keeps rfl) }
    have hdeselect : Effect g ensured db₂ :=
      effect_configure hi₁ fun c _ _ a ha =>
        Or.inl (Configuration.deselect_selects ha).1
    set db₃ : Db := { db₂ with
      playbacks := ensured.playbacks.update
        (fun r => r.userID = userID ∧ r.status.Terminal
          ∧ (r.imageAssetID = some assetID
            ∨ r.soundAssetID = some assetID))
        (Playback.deselect assetID) (Table.keeps rfl) }
    have hdrop : Effect g db₂ db₃ := .move fun r _ hp =>
      .releaseMedia (hg r) hp.2.1 (keptOrDropped_deselect _ _)
        (keptOrDropped_deselect _ _) (Or.inl rfl)
    have hi₃ := (hi₁.effect hdeselect).effect hdrop
    have hsteps := (hensure.steps.tail hdeselect).tail hdrop
    refine hsteps.tail (.media _ _ _ (fun r hr a ha hhas => ?_)
      fun c hc a ha => ?_)
    · obtain ⟨asset, hmem, hid, hu⟩ := hhas
      refine ⟨asset, Table.mem_delete.mpr ⟨hmem, ?_⟩, hid, hu⟩
      rintro ⟨hdel, -, hfree⟩
      exact hfree ⟨r, hr, hid.symm.trans hdel ▸ ha⟩
    · obtain ⟨asset, hmem, hid, hu⟩ := hi₃.selected c hc a ha
      refine ⟨asset, Table.mem_delete.mpr ⟨hmem, ?_⟩, hid, hu⟩
      rintro ⟨hdel, howner, -⟩
      have hca : a = assetID := hid.symm.trans hdel
      have hcu : c.userID = userID := hu.symm.trans howner
      have hc' : c ∈ db₂.configurations := hc
      rw [Table.mem_update] at hc'
      obtain ⟨c₀, -, he⟩ := hc'
      split at he
      case isTrue =>
        subst he
        exact (Configuration.deselect_selects ha).2 hca
      case isFalse hne =>
        subst he
        exact hne hcu

-- ================================= retention

theorem steps_pruneHistory (now : Time)
    (hg : ∀ r : Playback, r.Retired now db → g.retire r) :
    Steps g db (pruneHistory now db) := by
  refine Effect.steps (.prune (fun r _ hp => ⟨hg r hp, hp.1⟩) _
    fun d hd => ?_)
  obtain ⟨hd, hnot⟩ := Table.mem_delete.mp hd
  exact ⟨hd, fun r hr habout hp => hnot ⟨r, hr, habout.1, habout.2, hp⟩⟩

/-- A reference that is filtered is kept or dropped. -/
private theorem keptOrDropped_filter (reference : Option AssetID)
    (p : AssetID → Bool) : KeptOrDropped reference (reference.filter p) := by
  cases reference with
  | none => exact Or.inl rfl
  | some a =>
      by_cases h : p a
      · exact Or.inl (by simp [h])
      · exact Or.inr (by simp [h])

theorem steps_releaseHistoryMedia (hg : ∀ r, g.release r) :
    Steps g db (releaseHistoryMedia db) :=
  Effect.steps (.move fun r _ hp =>
    .releaseMedia (hg r) hp.1 (keptOrDropped_filter _ _)
      (keptOrDropped_filter _ _) (Or.inr rfl))

theorem steps_deleteUnreferencedAssets (hi : Inv db) :
    Steps g db (deleteUnreferencedAssets db) := by
  refine Effect.steps (.media _ _ _ (fun r hr a ha hhas => ?_)
    fun c hc a ha => ?_)
  · obtain ⟨asset, hmem, hid, hu⟩ := hhas
    refine ⟨asset, Table.mem_delete.mpr ⟨hmem, ?_⟩, hid, hu⟩
    rintro ⟨-, hfree⟩
    exact hfree ⟨r, hr, hid.symm ▸ ha⟩
  · obtain ⟨asset, hmem, hid, hu⟩ := hi.selected c hc a ha
    refine ⟨asset, Table.mem_delete.mpr ⟨hmem, ?_⟩, hid, hu⟩
    rintro ⟨hfree, -⟩
    exact hfree ⟨c, hc, hid.symm ▸ ha⟩

-- ===================================== queue

/-- A snapshot made from a configuration names what it selects. -/
private theorem present_has (hi : Inv db) {userID : UserID}
    {c : Configuration} (hc : db.configurations.get? userID = some c) :
    ∀ a, c.imageAssetID = some a ∨ c.soundAssetID = some a →
      db.Has userID a := by
  intro a ha
  have hhas := hi.selected c (Table.mem_of_get? hc) a ha
  have hu : c.userID = userID := Table.key_of_get? hc
  rwa [hu] at hhas

/-- The initial status of a playback is in the backlog. -/
theorem initialStatus_waiting (c : Configuration)
    (message : Option String) : (initialStatus c message).Waiting := by
  unfold initialStatus
  split
  · exact Or.inl rfl
  · exact Or.inr rfl

/-- A playback is prepared only when it has a message. -/
theorem initialStatus_preparing {c : Configuration}
    {message : Option String}
    (h : initialStatus c message = .preparing) :
    presentedMessage message ≠ none := by
  unfold initialStatus at h
  split at h
  case isFalse => cases h
  case isTrue hspeak =>
    cases message with
    | none => cases hspeak.2
    | some text => exact Option.some_ne_none _

theorem steps_insertDonation (donation : Donation)
    (hg : g.donate donation) :
    Steps g db ((db.insertDonation donation).getD db) := by
  unfold Db.insertDonation
  split
  case isTrue => exact .refl
  case isFalse =>
    cases hins : db.donations.insert? donation with
    | none => exact .refl
    | some donations =>
        refine Effect.steps (.donate donations (fun d hd => ?_)
          fun d hd => ?_)
        · exact (Table.mem_insert? hins).mpr (Or.inl hd)
        · rcases (Table.mem_insert? hins).mp hd with hd | rfl
          · exact Or.inl hd
          · exact Or.inr hg

/-- An incoming playback is queued, and the backlog is cut. -/
theorem steps_enqueueIncoming (hi : Inv db) {userID : UserID}
    {donationID : DonationID} {source : Source} {acceptedAt : Time}
    {draw : Draw} (hg : g.queue userID) (hincoming : g.incoming donationID)
    (h : enqueueIncoming userID donationID source acceptedAt draw db
      = .ok db') : Steps g db db' := by
  unfold enqueueIncoming at h
  split at h
  case h_1 => cases h; exact .refl
  case h_2 c hc =>
    split at h
    case h_1 => cases h; exact Effect.steps (effect_boundBacklog _ _)
    case h_2 donation hdonation =>
      split at h
      case isFalse => cases h; exact Effect.steps (effect_boundBacklog _ _)
      case isTrue haccept =>
        split at h
        case h_1 => cases h
        case h_2 db₁ hins =>
          cases h
          have hu : donation.userID = userID := haccept.1.1
          have hid : donation.donationID = donationID :=
            Table.key_of_get? hdonation
          refine (Effect.steps (.insert (hu ▸ hg) hins
            (initialStatus_waiting _ _) initialStatus_preparing
            (fun a ha => ?_) fun _ => ?_)).tail (effect_boundBacklog _ _)
          · rw [hu]
            exact present_has hi hc a ha
          · exact ⟨donation.donationID, rfl, hid ▸ hincoming, hid ▸ haccept.2⟩

/-- A test is queued, and the backlog is cut. -/
theorem steps_createTest (hi : Inv db) (userID : UserID) (now : Time)
    (draw : Draw) (hg : g.queue userID) :
    Steps g db (createTest userID now draw db).2 := by
  unfold createTest
  simp only
  have hensure := effect_ensureConfiguration (g := g) hi userID
  have hi₁ := hi.effect hensure
  split
  case h_1 => exact .refl
  case h_2 c hc =>
    split
    case h_1 => exact .refl
    case h_2 inserted hins =>
      have hinsert : Effect g _ inserted := .insert hg hins (by
          split
          · exact Or.inl rfl
          · exact Or.inr rfl) (fun _ => Option.some_ne_none _)
        (fun a ha => present_has hi₁ hc a ha) fun hk => by cases hk
      have hsteps := (hensure.steps.tail hinsert).tail
        (effect_boundBacklog userID now)
      split <;> exact hsteps

/-- A replay is queued, and the backlog is cut. -/
theorem steps_replay (hi : Inv db) (userID : UserID)
    (sourcePlaybackID : PlaybackID) (now : Time) (draw : Draw)
    (hg : g.queue userID) :
    Steps g db (replay userID sourcePlaybackID now draw db).2 := by
  unfold replay
  simp only
  have hensure := effect_ensureConfiguration (g := g) hi userID
  have hi₁ := hi.effect hensure
  split
  case h_1 source c hsource hc =>
    split
    case h_1 => exact .refl
    case h_2 inserted hins =>
      have hinsert : Effect g _ inserted :=
        .insert hg hins (initialStatus_waiting _ _)
          initialStatus_preparing (fun a ha => present_has hi₁ hc a ha)
          fun hk => by cases hk
      have hsteps := (hensure.steps.tail hinsert).tail
        (effect_boundBacklog userID now)
      split <;> exact hsteps
  case h_2 => exact .refl

theorem steps_skip (hi : Inv db) (userID : UserID) (now : Time) :
    Steps g db (skip userID now db).2 := by
  unfold skip
  split
  case h_1 => exact .refl
  case h_2 =>
    split
    case h_1 => exact .refl
    case h_2 candidate hfirst =>
      obtain ⟨hmem, ⟨-, hactive⟩, -⟩ := Table.first_eq_some hfirst
      refine Effect.steps (.move fun r hr hid => ?_)
      have heq := hi.ids r hr candidate hmem hid
      exact .skip (heq ▸ hactive) now

-- =============================== preparation

/-- The rows a claim sees that still prepare are the rows as they
were. -/
theorem mem_swept_preparing {now : Time} {r : Playback}
    (hr : r ∈ (releaseExhausted now (expireAll now db)).playbacks)
    (hs : r.status = .preparing) : r ∈ db.playbacks := by
  unfold releaseExhausted at hr
  rw [Table.mem_update] at hr
  obtain ⟨s, hs₁, he⟩ := hr
  split at he
  case isTrue =>
    subst he
    cases hs
  case isFalse =>
    subst he
    unfold expireAll at hs₁
    rw [Table.mem_update] at hs₁
    obtain ⟨t, ht, he⟩ := hs₁
    split at he
    case isTrue =>
      subst he
      cases hs
    case isFalse => exact he ▸ ht

/-- A claim sweeps the queue and prepares one playback. -/
theorem steps_claimPreparation (hi : Inv db) (now : Time)
    (locked : List Nat)
    (hg : ∀ r : Playback, r.Preparable now → g.prepare r) :
    Steps g db (claimPreparation now locked db).2 := by
  unfold claimPreparation
  simp only
  have hexpire : Effect g db (expireAll now db) := effect_expireAll now
  have hrelease : Effect g (expireAll now db)
    (releaseExhausted now (expireAll now db)) := effect_releaseExhausted now
  have hi₂ := (hi.effect hexpire).effect hrelease
  have hsteps := hexpire.steps.tail hrelease
  split
  case h_1 => exact hsteps
  case h_2 candidate hfirst =>
    split
    case h_1 => exact .refl
    case h_2 text =>
      obtain ⟨hmem, ⟨hprep, -⟩, -⟩ := Table.first_eq_some hfirst
      refine hsteps.tail (.move fun r hr hid => ?_)
      have heq := hi₂.ids r hr candidate hmem hid
      subst heq
      exact .claimPreparation (hg r hprep) hprep.1 hprep.2.2.2.1 now

/-- The prepared speech is stored, and its playback has it. -/
theorem steps_completePreparation (hi : Inv db)
    (preparation : Preparation) (media : Media) (assetID : AssetID)
    (now : Time)
    (hg : ∀ r : Playback, r.PreparedBy preparation → g.speak r) :
    Steps g db (completePreparation preparation media assetID now db).2 := by
  unfold completePreparation
  split
  case h_1 => exact .refl
  case h_2 speech inserted hins =>
    obtain ⟨hsave, hhas, -⟩ := effect_insertAsset (g := g) hi hins
    split
    case isFalse => exact .refl
    case isTrue =>
      refine hsave.steps.tail (.move fun r _ hp => ?_)
      have hu : r.userID = preparation.userID := hp.2.1
      exact .attachSpeech (hg r hp) hp.2.2.2 (hu ▸ hhas)

theorem steps_failPreparation (preparation : Preparation) (now : Time) :
    Steps g db (failPreparation preparation now db).2 := by
  unfold failPreparation
  simp only
  have hfail : Effect g db { db with
      playbacks := db.playbacks.update (Playback.PreparedBy preparation)
        (Playback.failPreparation preparation now) (Table.keeps rfl) } :=
    .move fun r _ hp => r.move_failPreparation preparation now hp.2.2.2
  split <;> exact hfail.steps

-- =================================== players

/-- The player row a caller finds carries what the caller presented. -/
theorem Db.player?_eq_some {tokenHash : TokenHash} {playerID : PlayerID}
    {generation : Int} {player : Player}
    (h : db.player? tokenHash playerID generation = some player) :
    player ∈ db.players ∧ player.playerID = playerID
      ∧ player.generation = generation
      ∧ ∃ overlay ∈ db.overlays, overlay.userID = player.userID
        ∧ overlay.tokenHash = tokenHash := by
  obtain ⟨hmem, hid, hgen, hover⟩ := Table.find?_eq_some h
  exact ⟨hmem, hid, hgen, hover⟩

/-- Taking its playbacks from the player the caller presented. -/
private theorem steps_surrender {tokenHash : TokenHash}
    {playerID : PlayerID} {generation : Int} {now : Time}
    {reason : DiagnosticCode} {player : Player}
    (h : db.player? tokenHash playerID generation = some player)
    (hg : ∀ r ∈ db.playbacks,
      r.Surrendered tokenHash playerID generation now db → g.back r)
    (hsame : db'.playbacks = db.playbacks) :
    Effect g db' (recoverAssignedPlayback player.userID playerID
      generation now reason db') :=
  effect_recoverAssignedPlayback fun r hr hassigned hret =>
    hg r (hsame ▸ hr) ⟨hret, player, h, hassigned⟩

/-- What the last holder of the lease played is handed back. -/
theorem steps_openPlayer (tokenHash : TokenHash)
    (candidateID : PlayerID) (now : Time)
    (hg : ∀ r ∈ db.playbacks, r.Inherited tokenHash now db → g.back r) :
    Steps g db (openPlayer tokenHash candidateID now db).2 := by
  unfold openPlayer
  split
  case h_1 => exact .refl
  case h_2 overlay hoverlay =>
    simp only
    split
    case h_1 hnone =>
      refine Effect.steps (effect_connectPlayer fun player hp hu => ?_)
      exact absurd hu (Table.get?_eq_none.mp hnone player hp)
    case h_2 current hcurrent =>
      split
      case isTrue => exact .refl
      case isFalse hlease =>
        have hrecover : Effect g db (recoverAssignedPlayback
            overlay.userID current.playerID current.generation now
            .playerDisconnected db) :=
          effect_recoverAssignedPlayback fun r hr hassigned hret =>
            hg r hr ⟨hret, overlay, current, hoverlay, hcurrent,
              not_lt.mp hlease, hassigned⟩
        refine hrecover.steps.tail
          (effect_connectPlayer fun player hp hu r hr hassigned => ?_)
        have hplayer : db.players.get? overlay.userID = some player :=
          hu ▸ Table.get?_key hp
        rw [hcurrent] at hplayer
        cases hplayer
        rw [hu] at hassigned
        exact recoverAssignedPlayback_idle r hr hassigned

/-- A lapsed heartbeat hands back what the player plays. -/
theorem steps_heartbeat (tokenHash : TokenHash) (playerID : PlayerID)
    (generation : Int) (active visible : Bool) (now : Time)
    (hg : ∀ r ∈ db.playbacks,
      (Action.heartbeat tokenHash playerID generation active visible
        now).Returns db r → g.back r) :
    Steps g db (heartbeat tokenHash playerID generation active visible now
      db).2 := by
  unfold heartbeat
  split
  case h_1 => exact .refl
  case h_2 player hplayer =>
    simp only
    split
    case isTrue hover =>
      exact Effect.steps (steps_surrender hplayer (fun r hr hs =>
        hg r hr ⟨Or.inl ⟨player, hplayer, not_lt.mp hover⟩, hs⟩) rfl)
    case isFalse hlease =>
      have hrenew : Effect g db { db with
          players := db.players.update
            (fun p => p.userID = player.userID ∧ p.playerID = playerID
              ∧ p.generation = generation)
            (fun p => { p with
              active, visible
              lastSeenAt := jsDate now
              leaseExpiresAt := jsDate (now + playerLease) })
            (Table.keeps rfl) } := effect_renew fun _ => ⟨rfl, rfl⟩
      split
      case isTrue hidle =>
        refine hrenew.steps.tail (steps_surrender hplayer
          (fun r hr hs => hg r hr ⟨Or.inr ?_, hs⟩) rfl)
        simpa using hidle
      case isFalse => exact hrenew.steps

theorem steps_releasePlayer (tokenHash : TokenHash) (playerID : PlayerID)
    (generation : Int) (now : Time)
    (hg : ∀ r ∈ db.playbacks,
      r.Surrendered tokenHash playerID generation now db → g.back r) :
    Steps g db (releasePlayer tokenHash playerID generation now db).2 := by
  unfold releasePlayer
  split
  case h_1 => exact .refl
  case h_2 player hplayer =>
    refine (Effect.steps (steps_surrender hplayer hg rfl)).tail
      (effect_deletePlayers fun p _ hp r hr hassigned => ?_)
    obtain ⟨hu, hid, hgen⟩ := hp
    rw [hu, hid, hgen] at hassigned
    exact recoverAssignedPlayback_idle r hr hassigned

/-- Rotating the token hands back what any player of the user plays. -/
theorem steps_setOverlayTokenHash (hi : Inv db) (userID : UserID)
    (tokenHash : TokenHash) (now : Time)
    (hg : ∀ r ∈ db.playbacks,
      (Action.setOverlayTokenHash userID tokenHash now).Returns db r →
      g.back r) (hrotate : g.rotate userID tokenHash) :
    Steps g db (setOverlayTokenHash userID tokenHash now db).2 := by
  unfold setOverlayTokenHash
  simp only
  have hensure := effect_ensureConfiguration (g := g) hi userID
  split
  case isTrue => exact .refl
  case isFalse hfree =>
    have hrecover : Effect g (ensureConfiguration userID db)
        (recoverUserPlayback userID now .overlayRotated
          (ensureConfiguration userID db)) :=
      effect_recoverUserPlayback fun r hr hu hret =>
        hg r hr ⟨hfree, hu, hret⟩
    have hdelete : Effect g (recoverUserPlayback userID now .overlayRotated
        (ensureConfiguration userID db)) _ :=
      effect_deletePlayers (p := fun p => p.userID = userID)
        fun p _ hp r hr hassigned =>
          recoverUserPlayback_idle r hr (hassigned.1.trans hp)
    refine ((hensure.steps.tail hrecover).tail hdelete).tail
      (.rotate _ fun o ho => ?_)
    rcases Table.mem_upsert.mp ho with ⟨rfl, -⟩ | ⟨o₁, ho₁, he⟩
    · exact Or.inr hrotate
    · split at he
      case isTrue hk =>
        subst he
        exact Or.inr (hk ▸ hrotate)
      case isFalse => exact Or.inl (he ▸ ho₁)

-- ================================== playback

/-- A poll expires the backlog, and hands back what a lapsed player plays. -/
theorem steps_streamState (tokenHash : TokenHash) (playerID : PlayerID)
    (generation : Int) (now : Time)
    (hg : ∀ r ∈ db.playbacks,
      Reclaims tokenHash playerID generation now db
        ∧ r.Surrendered tokenHash playerID generation now db → g.back r) :
    Steps g db (streamState tokenHash playerID generation now db).2 := by
  unfold streamState
  split
  case h_1 => exact .refl
  case h_2 player hplayer =>
    simp only
    split
    case h_1 => exact .refl
    case h_2 configuration hconfiguration =>
      split
      case isTrue hover =>
        exact Effect.steps (steps_surrender hplayer (fun r hr hs =>
          hg r hr ⟨⟨player, configuration, hplayer, hconfiguration,
            not_lt.mp hover⟩, hs⟩) rfl)
      case isFalse => exact Effect.steps (effect_recoverTimedOutPlayback _ _)

/-- What is left of a swept backlog is fresh. -/
theorem expireBacklog_fresh {userID : UserID} {now : Time} :
    ∀ r ∈ (expireBacklog userID now db).playbacks, r.InBacklog userID →
      now < r.expiresAt := by
  intro r hr hback
  unfold expireBacklog at hr
  rw [Table.mem_update] at hr
  obtain ⟨s, hs, he⟩ := hr
  split at he
  case isTrue =>
    subst he
    have hw : PlaybackStatus.expired.Waiting := hback.2
    simp [PlaybackStatus.Waiting] at hw
  case isFalse hnot =>
    subst he
    exact not_le.mp fun hle => hnot ⟨hback, hle⟩

/-- A claim moves one playback to the player that polls. -/
theorem steps_claimPlayback (tokenHash : TokenHash) (playerID : PlayerID)
    (generation : Int) (now : Time) (locked : List Nat)
    (hg : ∀ r ∈ db.playbacks,
      Reclaims tokenHash playerID generation now db
        ∧ r.Surrendered tokenHash playerID generation now db → g.back r) :
    Steps g db
      (claimPlayback tokenHash playerID generation now locked db).2 := by
  unfold claimPlayback
  split
  case h_1 => exact .refl
  case h_2 player hplayer =>
    simp only
    split
    case h_1 => exact .refl
    case h_2 configuration hconfiguration =>
      split
      case isTrue hover =>
        exact Effect.steps (steps_surrender hplayer (fun r hr hs =>
          hg r hr ⟨⟨player, configuration, hplayer, hconfiguration,
            not_lt.mp hover⟩, hs⟩) rfl)
      case isFalse =>
        have htimeOut : Effect g db _ :=
          effect_recoverTimedOutPlayback player.userID now
        have hsweep := htimeOut.steps.tail
          (effect_expireBacklog player.userID now)
        split
        case isTrue => exact hsweep
        case isFalse =>
          split
          case h_1 => exact hsweep
          case h_2 candidate hfirst =>
            obtain ⟨hmem, ⟨hu, hclaim, -⟩, -⟩ := Table.first_eq_some hfirst
            obtain ⟨hpending, -, -, hfree, hahead⟩ := hclaim
            obtain ⟨hp, hid, hgen, -⟩ := Db.player?_eq_some hplayer
            subst hid hgen
            have hassign : Effect g _ _ := .claim (Table.keeps rfl) hmem
              hpending hp hu.symm
              (fun s hs hsu hplay => hfree ⟨s, hs, hsu, hplay⟩)
              fun s hs hback => not_lt.mp fun hlt => hahead ⟨s, hs, hback,
                expireBacklog_fresh s hs (hu ▸ hback), hlt⟩
            split <;> exact hsweep.tail hassign

/-- An acknowledgement is one update, whatever it reports. -/
theorem acknowledge_snd (p : Playback → Prop) [DecidablePred p]
    (f : Playback → Playback)
    (hf : ∀ r, (f r).queueSequence = r.queueSequence) (db : Db) :
    (acknowledge p f hf db).2
      = { db with playbacks := db.playbacks.update p f hf } := by
  unfold acknowledge
  simp only
  split <;> rfl

theorem effect_startPlayback (tokenHash : TokenHash)
    (playerID : PlayerID) (generation : Int) (playbackID : PlaybackID)
    (now : Time)
    (hg : ∀ r : Playback,
      r.HeldBy tokenHash playerID generation playbackID now db →
      r.status = .playing → g.start r) :
    Effect g db
      (startPlayback tokenHash playerID generation playbackID now db).2 := by
  unfold startPlayback
  rw [acknowledge_snd]
  exact .move fun r _ hp => r.move_start now hp.2 (hg r hp.1 hp.2)

/-- An acknowledged finish is a single effect. -/
theorem effect_finishPlayback (hi : Inv db) (tokenHash : TokenHash)
    (playerID : PlayerID) (generation : Int) (playbackID : PlaybackID)
    (outcome : FinishOutcome) (now : Time)
    (hg : ∀ r ∈ db.playbacks,
      (Action.finishPlayback tokenHash playerID generation playbackID
        outcome now).Returns db r → g.back r) :
    Effect g db (finishPlayback tokenHash playerID generation playbackID
      outcome now db).2 := by
  unfold finishPlayback
  cases outcome with
  | completed =>
      simp only
      rw [acknowledge_snd]
      exact .move fun r hr hp =>
        r.move_complete now hp.2.1 hp.2.2 (hi.shape r hr)
  | interrupted =>
      simp only
      rw [acknowledge_snd]
      exact .move fun r hr hp =>
        r.move_interrupt now hp.2 (hi.shape r hr) fun hret =>
          hg r hr ⟨hp.1, hret⟩

theorem steps_recordPlaybackDiagnostic (hi : Inv db) (tokenHash : TokenHash)
    (playerID : PlayerID) (generation : Int) (playbackID : PlaybackID)
    (code : DiagnosticCode) (now : Time) :
    Steps g db (recordPlaybackDiagnostic tokenHash playerID generation
      playbackID code now db).2 := by
  unfold recordPlaybackDiagnostic
  split
  case isTrue => exact .refl
  case isFalse =>
    split
    case h_1 => exact .refl
    case h_2 r hfound =>
      refine Effect.steps (.diagnose _ fun d hd => ?_)
      obtain ⟨hr, -⟩ := Table.find?_eq_some hfound
      rcases Table.mem_upsert.mp hd with ⟨hnew, -⟩ | ⟨b, hb, he⟩
      · exact ⟨r, hr, by rw [hnew]; exact ⟨rfl, rfl⟩⟩
      · obtain ⟨s, hs, habout⟩ := hi.diagnosed b hb
        refine ⟨s, hs, ?_⟩
        split at he <;> subst he <;> exact habout

-- ================================ every call

/-- Every call is a sequence of effects under its own grant. -/
theorem apply_steps (hi : Inv db) (a : Action) :
    Steps (a.grant db) db (apply db a) := by
  cases a with
  | ensureConfiguration userID =>
      exact Effect.steps (effect_ensureConfiguration hi userID)
  | updateSettings userID settings =>
      exact steps_updateSettings hi userID settings
  | setPaused userID paused => exact steps_setPaused hi userID paused
  | saveAsset userID kind media assetID now =>
      exact steps_saveAsset hi userID kind media assetID now
  | deleteAsset userID assetID =>
      exact steps_deleteAsset hi userID assetID fun _ =>
        Or.inl ⟨userID, assetID, rfl⟩
  | insertDonation donation =>
      exact steps_insertDonation donation rfl
  | enqueueIncoming userID donationID source acceptedAt draw =>
      simp only [apply]
      split
      case h_1 db' h =>
        exact steps_enqueueIncoming hi rfl
          ⟨userID, source, acceptedAt, draw, rfl⟩ h
      case h_2 => exact .refl
  | createTest userID now draw => exact steps_createTest hi userID now draw rfl
  | replay userID sourcePlaybackID now draw =>
      exact steps_replay hi userID sourcePlaybackID now draw rfl
  | skip userID now => exact steps_skip hi userID now
  | claimPreparation now locked =>
      exact steps_claimPreparation hi now locked fun r hr =>
        ⟨now, locked, rfl, hr⟩
  | completePreparation preparation media assetID now =>
      exact steps_completePreparation hi preparation media assetID now
        fun r hr => ⟨preparation, media, assetID, now, rfl, hr⟩
  | failPreparation preparation now =>
      exact steps_failPreparation preparation now
  | openPlayer tokenHash candidateID now =>
      exact steps_openPlayer tokenHash candidateID now fun _ hr hs => ⟨hr, hs⟩
  | heartbeat tokenHash playerID generation active visible now =>
      exact steps_heartbeat tokenHash playerID generation active visible
        now fun _ hr hs => ⟨hr, hs⟩
  | releasePlayer tokenHash playerID generation now =>
      exact steps_releasePlayer tokenHash playerID generation now
        fun _ hr hs => ⟨hr, hs⟩
  | setOverlayTokenHash userID tokenHash now =>
      exact steps_setOverlayTokenHash hi userID tokenHash now
        (fun _ hr hs => ⟨hr, hs⟩) ⟨now, rfl⟩
  | streamState tokenHash playerID generation now =>
      exact steps_streamState tokenHash playerID generation now
        fun _ hr hs => ⟨hr, hs⟩
  | claimPlayback tokenHash playerID generation now locked =>
      exact steps_claimPlayback tokenHash playerID generation now locked
        fun _ hr hs => ⟨hr, hs⟩
  | startPlayback tokenHash playerID generation playbackID now =>
      exact Effect.steps (effect_startPlayback tokenHash playerID
        generation playbackID now
        fun r hr hs => ⟨_, _, _, _, _, rfl, hr, hs⟩)
  | finishPlayback tokenHash playerID generation playbackID outcome now =>
      exact Effect.steps (effect_finishPlayback hi tokenHash playerID
        generation playbackID outcome now fun _ hr hs => ⟨hr, hs⟩)
  | recordPlaybackDiagnostic tokenHash playerID generation playbackID
      code now =>
      exact steps_recordPlaybackDiagnostic hi tokenHash playerID generation
        playbackID code now
  | pruneHistory now =>
      exact steps_pruneHistory now fun r hr => ⟨now, rfl, hr⟩
  | releaseHistoryMedia =>
      exact steps_releaseHistoryMedia fun _ => Or.inr rfl
  | deleteUnreferencedAssets => exact steps_deleteUnreferencedAssets hi

/-- Every call keeps the invariant. -/
theorem Inv.apply (hi : Inv db) (a : Action) : Inv (apply db a) :=
  hi.steps (apply_steps hi a)

/-- Every reachable state meets the invariant. -/
theorem Reachable.inv (h : Reachable db) : Inv db :=
  Run.Reachable.preserves h Inv.init fun _ a hi => hi.apply a

end StreamBrew.Alert
