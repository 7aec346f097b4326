/-
Leases and names in the store, while everyone keeps to the rules of the
system (`Admits`).

# Leases

A lease that is over stays over: only its own heartbeat renews it, and
that not after its end. So a claimed playback can only go back to the
queue when the lease that held it is over for good (`Handed`).

# Names

Ids are drawn once. What is said about all rows of an id is therefore
said about one row, wherever it goes (`Named`).
-/
import StreamBrew.Alert.Screens
import StreamBrew.Alert.Proofs.Stream

namespace StreamBrew.Alert

open Relational

variable {now : Time} {tokenHash : TokenHash} {userID : UserID} {x : Player}

variable {db : Db} {a : Action} {r r' : Playback}

-- =================================== players

/-- The calls that leave the player table alone. -/
def Action.SparesPlayers : Action → Prop
  | .openPlayer .. | .heartbeat .. | .releasePlayer ..
  | .setOverlayTokenHash .. => False
  | _ => True

theorem insertPlayback_players {draw : Draw}
    {snapshot : Snapshot} {status : PlaybackStatus} {db' : Db}
    (h : db.insertPlayback draw userID snapshot status = some db') :
    db'.players = db.players := by
  obtain ⟨-, playbacks, -, rfl⟩ := Db.insertPlayback_eq_some h
  rfl

theorem insertAsset_players {kind : AssetKind}
    {media : Media} {assetID saved : AssetID} {db' : Db}
    (h : db.insertAsset userID kind media assetID now = some (saved, db')) :
    db'.players = db.players := by
  unfold Db.insertAsset at h
  split at h
  case h_1 =>
    cases h
    rfl
  case h_2 =>
    obtain ⟨assets, -, he⟩ := Option.map_eq_some_iff.mp h
    cases he
    rfl

/-- The calls that spare players do. -/
theorem players_apply (h : a.SparesPlayers) :
    (apply db a).players = db.players := by
  cases a with
  | openPlayer => exact h.elim
  | heartbeat => exact h.elim
  | releasePlayer => exact h.elim
  | setOverlayTokenHash => exact h.elim
  | ensureConfiguration userID => rfl
  | updateSettings userID settings =>
      show (updateSettings userID settings db).2.players = _
      unfold updateSettings
      simp only
      split
      case h_1 => rfl
      case h_2 => split <;> rfl
  | setPaused userID paused => rfl
  | saveAsset userID kind media assetID now =>
      show (saveAsset userID kind media assetID now db).2.players = _
      unfold saveAsset
      simp only
      split
      case h_1 => rfl
      case h_2 saved db' hins =>
        have hsame := insertAsset_players hins
        cases kind with
        | tts => rfl
        | image => exact hsame
        | sound => exact hsame
  | deleteAsset userID assetID =>
      show (deleteAsset userID assetID db).2.players = _
      unfold deleteAsset
      simp only
      split <;> rfl
  | insertDonation donation =>
      show ((db.insertDonation donation).getD db).players = _
      unfold Db.insertDonation
      split
      case isTrue => rfl
      case isFalse =>
        cases db.donations.insert? donation <;> rfl
  | enqueueIncoming userID donationID source acceptedAt draw =>
      simp only [apply]
      split
      case h_2 => rfl
      case h_1 db' hok =>
        unfold enqueueIncoming at hok
        split at hok
        case h_1 =>
          cases hok
          rfl
        case h_2 =>
          split at hok
          case h_1 =>
            cases hok
            rfl
          case h_2 =>
            split at hok
            case isFalse =>
              cases hok
              rfl
            case isTrue =>
              split at hok
              case h_1 => cases hok
              case h_2 inserted hins =>
                cases hok
                have hsame := insertPlayback_players hins
                exact hsame
  | createTest userID now draw =>
      show (createTest userID now draw db).2.players = _
      unfold createTest
      simp only
      split
      case h_1 => rfl
      case h_2 =>
        split
        case h_1 => rfl
        case h_2 inserted hins =>
          have hsame := insertPlayback_players hins
          split <;> exact hsame
  | replay userID sourcePlaybackID now draw =>
      show (replay userID sourcePlaybackID now draw db).2.players = _
      unfold replay
      simp only
      split
      case h_2 => rfl
      case h_1 =>
        split
        case h_1 => rfl
        case h_2 inserted hins =>
          have hsame := insertPlayback_players hins
          split <;> exact hsame
  | skip userID now =>
      show (skip userID now db).2.players = _
      unfold skip
      split
      case h_1 => rfl
      case h_2 => split <;> rfl
  | claimPreparation now locked =>
      show (claimPreparation now locked db).2.players = _
      unfold claimPreparation
      simp only
      split
      case h_1 => rfl
      case h_2 => split <;> rfl
  | completePreparation preparation media assetID now =>
      show (completePreparation preparation media assetID now
        db).2.players = _
      unfold completePreparation
      split
      case h_1 => rfl
      case h_2 speech inserted hins =>
        split
        case isFalse => rfl
        case isTrue =>
          have hsame := insertAsset_players hins
          exact hsame
  | failPreparation preparation now =>
      show (failPreparation preparation now db).2.players = _
      unfold failPreparation
      simp only
      split <;> rfl
  | streamState tokenHash playerID generation now =>
      show (streamState tokenHash playerID generation now db).2.players = _
      unfold streamState
      split
      case h_1 => rfl
      case h_2 =>
        simp only
        split
        case h_1 => rfl
        case h_2 => split <;> rfl
  | claimPlayback tokenHash playerID generation now locked =>
      show (claimPlayback tokenHash playerID generation now locked
        db).2.players = _
      unfold claimPlayback
      split
      case h_1 => rfl
      case h_2 =>
        simp only
        split
        case h_1 => rfl
        case h_2 =>
          split
          case isTrue => rfl
          case isFalse =>
            split
            case isTrue => rfl
            case isFalse =>
              split
              case h_1 => rfl
              case h_2 => split <;> rfl
  | startPlayback tokenHash playerID generation playbackID now =>
      show (startPlayback tokenHash playerID generation playbackID now
        db).2.players = _
      unfold startPlayback
      rw [acknowledge_snd]
  | finishPlayback tokenHash playerID generation playbackID outcome now =>
      show (finishPlayback tokenHash playerID generation playbackID outcome
        now db).2.players = _
      cases outcome with
      | completed =>
          simp only [finishPlayback]
          rw [acknowledge_snd]
      | interrupted =>
          simp only [finishPlayback]
          rw [acknowledge_snd]
  | recordPlaybackDiagnostic tokenHash playerID generation playbackID code
      now =>
      show (recordPlaybackDiagnostic tokenHash playerID generation
        playbackID code now db).2.players = _
      unfold recordPlaybackDiagnostic
      split
      case isTrue => rfl
      case isFalse => split <;> rfl
  | pruneHistory now => rfl
  | releaseHistoryMedia => rfl
  | deleteUnreferencedAssets => rfl

/-- A player row after a call: one that was there, perhaps renewed, or
that of the player that the call opens. -/
inductive PlayerOrigin (db : Db) (x : Player) : Action → Prop
  | kept {a : Action} (h : x ∈ db.players) : PlayerOrigin db x a
  | renewed {tokenHash : TokenHash} {playerID : PlayerID}
      {generation : Int} {active visible : Bool} {now : Time} {y : Player}
      (hy : y ∈ db.players) (huser : y.userID = x.userID)
      (hid : y.playerID = playerID ∧ x.playerID = playerID)
      (hgeneration : y.generation = generation
        ∧ x.generation = generation)
      (hlease : now < y.leaseExpiresAt) :
      PlayerOrigin db x
        (.heartbeat tokenHash playerID generation active visible now)
  | opened {tokenHash : TokenHash} {candidateID : PlayerID} {now : Time}
      {overlay : Overlay}
      (hoverlay : db.overlays.find? (fun o => o.tokenHash = tokenHash)
        = some overlay) (huser : x.userID = overlay.userID)
      (hid : x.playerID = candidateID) :
      PlayerOrigin db x (.openPlayer tokenHash candidateID now)

theorem connectPlayer_origin {playerID : PlayerID}
    (h : x ∈ (connectPlayer userID playerID now db).players) :
    x ∈ db.players ∨ x.userID = userID ∧ x.playerID = playerID := by
  rcases Table.mem_upsert.mp h with ⟨rfl, -⟩ | ⟨c, hc, he⟩
  · exact .inr ⟨rfl, rfl⟩
  · split at he
    case isTrue hk =>
      subst he
      exact .inr ⟨hk, rfl⟩
    case isFalse => exact .inl (he ▸ hc)

/-- Where a player of the next state comes from. -/
theorem player_origin (h : x ∈ (apply db a).players) :
    PlayerOrigin db x a := by
  by_cases hspares : a.SparesPlayers
  · rw [players_apply hspares] at h
    exact .kept h
  cases a with
  | openPlayer tokenHash candidateID now =>
      have h : x ∈ (openPlayer tokenHash candidateID now db).2.players := h
      unfold openPlayer at h
      split at h
      case h_1 => exact .kept h
      case h_2 overlay hoverlay =>
        simp only at h
        split at h
        case h_1 =>
          rcases connectPlayer_origin h with h | ⟨hu, hid⟩
          · exact .kept h
          · exact .opened hoverlay hu hid
        case h_2 =>
          split at h
          case isTrue => exact .kept h
          case isFalse =>
            rcases connectPlayer_origin h with h | ⟨hu, hid⟩
            · exact .kept h
            · exact .opened hoverlay hu hid
  | heartbeat tokenHash playerID generation active visible now =>
      have h : x ∈ (heartbeat tokenHash playerID generation active visible
        now db).2.players := h
      unfold heartbeat at h
      split at h
      case h_1 => exact .kept h
      case h_2 player hplayer =>
        simp only at h
        split at h
        case isTrue => exact .kept h
        case isFalse hlease =>
          have hrenewed : ∀ y ∈ db.players,
              (if y.userID = player.userID ∧ y.playerID = playerID
                  ∧ y.generation = generation then
                { y with
                  active, visible
                  lastSeenAt := jsDate now
                  leaseExpiresAt := jsDate (now + playerLease) }
              else y) = x →
              PlayerOrigin db x
                (.heartbeat tokenHash playerID generation active visible
                  now) := by
            intro y hy he
            split at he
            case isFalse => exact .kept (he ▸ hy)
            case isTrue hkey =>
              obtain ⟨hu, hid, hgen⟩ := hkey
              obtain ⟨hp, -⟩ := Db.player?_eq_some hplayer
              have heq := Table.eq_of_key hy hp hu
              subst he
              refine .renewed hy rfl ⟨hid, hid⟩ ⟨hgen, hgen⟩ ?_
              rw [heq]
              exact not_not.mp hlease
          split at h
          case isTrue =>
            unfold recoverAssignedPlayback at h
            simp only [Table.mem_update] at h
            obtain ⟨y, hy, he⟩ := h
            exact hrenewed y hy he
          case isFalse =>
            simp only [Table.mem_update] at h
            obtain ⟨y, hy, he⟩ := h
            exact hrenewed y hy he
  | releasePlayer tokenHash playerID generation now =>
      have h : x ∈ (releasePlayer tokenHash playerID generation now
        db).2.players := h
      unfold releasePlayer at h
      split at h
      case h_1 => exact .kept h
      case h_2 => exact .kept (Table.mem_delete.mp h).1
  | setOverlayTokenHash userID tokenHash now =>
      have h : x ∈ (setOverlayTokenHash userID tokenHash now
        db).2.players := h
      unfold setOverlayTokenHash at h
      simp only at h
      split at h
      case isTrue => exact .kept h
      case isFalse => exact .kept (Table.mem_delete.mp h).1
  | _ => exact absurd trivial hspares

-- ===================================== names

/-- Where the id of a row comes from. -/
def IDOrigin (db : Db) (drawn : List PlaybackID) (r' : Playback) : Prop :=
  (∃ r ∈ db.playbacks, r.playbackID = r'.playbackID
    ∧ r.queueSequence = r'.queueSequence) ∨ r'.playbackID ∈ drawn

variable {g : Grant} {db' : Db} {drawn : List PlaybackID}

/-- Statements that queue nothing draw no ids. -/
theorem Steps.idOrigin (hi : Inv db') (hq : ∀ userID, ¬ g.queue userID)
    (hids : ∀ r ∈ db'.playbacks, IDOrigin db drawn r) {db'' : Db}
    (h : Steps g db' db'') : ∀ r ∈ db''.playbacks, IDOrigin db drawn r := by
  induction h with
  | refl => exact hids
  | tail hsteps heffect ih =>
      intro r' hr'
      rcases heffect.origin (hi.steps hsteps) hr' with ⟨r, hr, hn⟩ | hnew
      · rcases ih r hr with ⟨s, hs, hid, hseq⟩ | hdrawn
        · left
          exact ⟨s, hs, hid.trans hn.playbackID.symm,
            hseq.trans hn.queueSequence.symm⟩
        · right
          rw [hn.playbackID]
          exact hdrawn
      · exact absurd hnew.granted (hq _)

theorem idOrigin_refl : ∀ r ∈ db.playbacks, IDOrigin db drawn r :=
  fun r hr => .inl ⟨r, hr, rfl, rfl⟩

/-- A call that queues inserts the row of its draw, and bounds the
backlog. -/
theorem idOrigin_queued {draw : Draw}
    {snapshot : Snapshot} {status : PlaybackStatus} {inserted : Db}
    {owner : UserID} {db₀ : Db}
    (hids : ∀ r ∈ db.playbacks, IDOrigin db₀ [draw.playbackID] r)
    (h : db.insertPlayback draw userID snapshot status = some inserted) :
    ∀ r ∈ (boundBacklog owner now inserted).playbacks,
      IDOrigin db₀ [draw.playbackID] r := by
  obtain ⟨-, playbacks, hins, rfl⟩ := Db.insertPlayback_eq_some h
  intro r' hr'
  unfold boundBacklog at hr'
  rw [Table.mem_update] at hr'
  obtain ⟨r, hr, he⟩ := hr'
  have hsame : r'.playbackID = r.playbackID
      ∧ r'.queueSequence = r.queueSequence := by
    rw [← he]
    split <;> exact ⟨rfl, rfl⟩
  rcases (Table.mem_insert? hins).mp hr with hold | rfl
  · rcases hids r hold with ⟨s, hs, hid, hseq⟩ | hdrawn
    · left
      exact ⟨s, hs, hid.trans hsame.1.symm, hseq.trans hsame.2.symm⟩
    · right
      rw [hsame.1]
      exact hdrawn
  · right
    rw [hsame.1]
    exact List.mem_singleton_self _

/-- Every row of a call has the id and the sequence of one before it,
or the id that the call draws. -/
theorem id_origin (hi : Inv db) (a : Action) :
    ∀ r ∈ (apply db a).playbacks, IDOrigin db a.drawn r := by
  have hensured : ∀ (userID : UserID) (drawn : List PlaybackID),
      ∀ r ∈ (ensureConfiguration userID db).playbacks,
        IDOrigin db drawn r := by
    intro userID drawn r hr
    exact .inl ⟨r, hr, rfl, rfl⟩
  by_cases hqueues : ∃ userID, a.Queues userID
  case neg =>
    intro r hr
    refine Steps.idOrigin hi (fun userID hq => hqueues ⟨userID, hq⟩)
      (fun r hr => ?_) (apply_steps hi a) r hr
    exact .inl ⟨r, hr, rfl, rfl⟩
  obtain ⟨owner, hqueues⟩ := hqueues
  cases a with
  | enqueueIncoming userID donationID source acceptedAt draw =>
      have hbounded : ∀ r ∈ (boundBacklog userID acceptedAt db).playbacks,
          IDOrigin db [draw.playbackID] r := by
        intro r hr
        refine Steps.idOrigin (g := {}) hi (fun _ h => h) idOrigin_refl
          (.single (effect_boundBacklog userID acceptedAt)) r hr
      intro r hr
      simp only [apply] at hr
      split at hr
      case h_2 => exact .inl ⟨r, hr, rfl, rfl⟩
      case h_1 db' hok =>
        unfold enqueueIncoming at hok
        split at hok
        case h_1 =>
          cases hok
          exact .inl ⟨r, hr, rfl, rfl⟩
        case h_2 =>
          split at hok
          case h_1 =>
            cases hok
            exact hbounded r hr
          case h_2 =>
            split at hok
            case isFalse =>
              cases hok
              exact hbounded r hr
            case isTrue =>
              split at hok
              case h_1 => cases hok
              case h_2 inserted hins =>
                cases hok
                exact idOrigin_queued idOrigin_refl hins r hr
  | createTest userID now draw =>
      intro r hr
      have hr : r ∈ (createTest userID now draw db).2.playbacks := hr
      unfold createTest at hr
      simp only at hr
      split at hr
      case h_1 => exact .inl ⟨r, hr, rfl, rfl⟩
      case h_2 =>
        split at hr
        case h_1 => exact .inl ⟨r, hr, rfl, rfl⟩
        case h_2 inserted hins =>
          have hqueued : ∀ r ∈ (boundBacklog userID now
              inserted).playbacks, IDOrigin db [draw.playbackID] r :=
            idOrigin_queued (hensured userID [draw.playbackID]) hins
          split at hr <;> exact hqueued r hr
  | replay userID sourcePlaybackID now draw =>
      intro r hr
      have hr : r ∈ (replay userID sourcePlaybackID now draw
        db).2.playbacks := hr
      unfold replay at hr
      simp only at hr
      split at hr
      case h_2 => exact .inl ⟨r, hr, rfl, rfl⟩
      case h_1 =>
        split at hr
        case h_1 => exact .inl ⟨r, hr, rfl, rfl⟩
        case h_2 inserted hins =>
          have hqueued : ∀ r ∈ (boundBacklog userID now
              inserted).playbacks, IDOrigin db [draw.playbackID] r :=
            idOrigin_queued (hensured userID [draw.playbackID]) hins
          split at hr <;> exact hqueued r hr
  | _ => exact hqueues.elim

/-- What is true of all rows of an id, and stays true of a row along
every arrow of a call, is true of all rows of the id afterwards. -/
theorem named {P : Playback → Prop} {playbackID : PlaybackID}
    (hi : Inv db) (hnew : playbackID ∉ a.drawn)
    (hP : ∀ has r r', P r → Next has (a.grant db) r r' → P r')
    (h : ∀ r ∈ db.playbacks, r.playbackID = playbackID → P r) :
    ∀ r ∈ (apply db a).playbacks, r.playbackID = playbackID → P r := by
  intro r' hr' hid
  rcases id_origin hi a r' hr' with ⟨r, hr, hsame, hseq⟩ | hdrawn
  · have hsettled : Settled P r.queueSequence db := by
      refine ⟨hi.bound r hr, fun s hs hq => ?_⟩
      have heq := Table.eq_of_key hs hr hq
      rw [heq]
      exact h r hr (hsame.trans hid)
    exact (hsettled.steps hi hP (apply_steps hi a)).2 r' hr' hseq.symm
  · rw [hid] at hdrawn
    exact absurd hdrawn hnew

-- ===================================== rules

/-- All rows of the id were started by the player. -/
def Started (playerID : PlayerID) (generation : Int)
    (playbackID : PlaybackID) (db : Db) : Prop :=
  ∀ r ∈ db.playbacks, r.playbackID = playbackID →
    Presented playerID generation r

/-- What the system makes sure of for a call at a time of its clock,
while the ids of `players` are drawn. -/
structure Admits (clock : Time) (players : List PlayerID) (db : Db)
    (a : Action) : Prop where
  fresh : ∀ tokenHash candidateID now,
    a = .openPlayer tokenHash candidateID now →
    candidateID ∉ players ∧ now ≤ clock
  beats : ∀ tokenHash playerID generation active visible now,
    a = .heartbeat tokenHash playerID generation active visible now →
    now = clock ∧ active = true ∧ visible = true
  polls : ∀ tokenHash playerID generation now,
    a = .streamState tokenHash playerID generation now → now ≤ clock
  claims : ∀ tokenHash playerID generation now locked,
    a = .claimPlayback tokenHash playerID generation now locked →
    now ≤ clock
  ends : ∀ tokenHash playerID generation playbackID now,
    a = .finishPlayback tokenHash playerID generation playbackID
      .interrupted now → Started playerID generation playbackID db

/-- Player ids are drawn, and each belongs to one row. -/
structure Listed (players : List PlayerID) (db : Db) : Prop where
  drawn : ∀ x ∈ db.players, x.playerID ∈ players
  unique : ∀ x ∈ db.players, ∀ y ∈ db.players,
    x.playerID = y.playerID → x = y

/-- No row of the player has a lease that runs. -/
def Dead (playerID : PlayerID) (generation : Int) (clock : Time)
    (db : Db) : Prop :=
  ∀ x ∈ db.players, x.playerID = playerID → x.generation = generation →
    x.leaseExpiresAt ≤ clock

/-- The player plays it. -/
def Plays (playerID : PlayerID) (generation : Int) (r : Playback) : Prop :=
  r.status = .playing ∧ r.playerID = some playerID
    ∧ r.playerGeneration = some generation

/-- Handed out to the player: it plays, or is over, or else the player
is. -/
def Handed (playerID : PlayerID) (generation : Int)
    (playbackID : PlaybackID) (clock : Time) (db : Db) : Prop :=
  Dead playerID generation clock db
    ∨ ∀ r ∈ db.playbacks, r.playbackID = playbackID →
      r.status.Terminal ∨ Plays playerID generation r

/-- All rows of the id are over. -/
def Ended (playbackID : PlaybackID) (db : Db) : Prop :=
  ∀ r ∈ db.playbacks, r.playbackID = playbackID → r.status.Terminal

variable {clock : Time} {players : List PlayerID} {playerID : PlayerID}
  {generation : Int} {playbackID : PlaybackID}

/-- The ids that a call draws for players. -/
def Action.opens : Action → List PlayerID
  | .openPlayer _ candidateID _ => [candidateID]
  | _ => []

/-- The list grows by the players that a call opens. -/
theorem Listed.next (h : Listed players db)
    (ha : Admits clock players db a) :
    Listed (a.opens ++ players) (apply db a) := by
  -- Each row goes back to one of its user, but for the one opened.
  have horigin : ∀ x ∈ (apply db a).players,
      (∃ y ∈ db.players, y.userID = x.userID ∧ y.playerID = x.playerID)
        ∨ ∃ tokenHash candidateID now overlay,
          a = .openPlayer tokenHash candidateID now
            ∧ db.overlays.find? (fun o => o.tokenHash = tokenHash)
              = some overlay
            ∧ x.userID = overlay.userID ∧ x.playerID = candidateID := by
    intro x hx
    cases player_origin hx with
    | kept h => exact .inl ⟨x, h, rfl, rfl⟩
    | renewed hy huser hid =>
        exact .inl ⟨_, hy, huser, hid.1.trans hid.2.symm⟩
    | opened hoverlay huser hid =>
        exact .inr ⟨_, _, _, _, rfl, hoverlay, huser, hid⟩
  constructor
  case drawn =>
    intro x hx
    rcases horigin x hx with ⟨y, hy, -, hid⟩ | ⟨_, _, _, _, rfl, -, -, hid⟩
    · refine List.mem_append_right _ ?_
      rw [← hid]
      exact h.drawn y hy
    · refine List.mem_append_left _ ?_
      rw [hid]
      exact List.mem_singleton_self _
  case unique =>
    intro x hx x' hx' he
    refine Table.eq_of_key hx hx' ?_
    rcases horigin x hx with ⟨y, hy, hu, hid⟩ | ⟨_, _, _, _, ha₁, ho, hu, hid⟩
    · rcases horigin x' hx' with
        ⟨y', hy', hu', hid'⟩ | ⟨_, _, _, _, rfl, -, -, hid'⟩
      · have heq := h.unique y hy y' hy'
          (hid.trans (he.trans hid'.symm))
        rw [← hu, ← hu', heq]
      · have hdrawn := h.drawn y hy
        rw [hid, he, hid'] at hdrawn
        exact absurd hdrawn (ha.fresh _ _ _ rfl).1
    · rcases horigin x' hx' with
        ⟨y', hy', hu', hid'⟩ | ⟨_, _, _, _, ha₂, ho', hu', -⟩
      · subst ha₁
        have hdrawn := h.drawn y' hy'
        rw [hid', ← he, hid] at hdrawn
        exact absurd hdrawn (ha.fresh _ _ _ rfl).1
      · rw [ha₁] at ha₂
        cases ha₂
        rw [ho] at ho'
        cases ho'
        exact hu.trans hu'.symm

theorem Dead.later (h : Dead playerID generation clock db) {t : Time}
    (ht : clock ≤ t) : Dead playerID generation t db :=
  fun x hx hid hgen => le_trans (h x hx hid hgen) ht

/-- A lease that is over stays over. -/
theorem Dead.next (h : Dead playerID generation clock db)
    (ha : Admits clock players db a) (hdrawn : playerID ∈ players) :
    Dead playerID generation clock (apply db a) := by
  intro x hx hid hgen
  cases player_origin hx with
  | kept hx => exact h x hx hid hgen
  | renewed hy _ hids hgenerations hlease =>
      -- The heartbeat has found a lease that runs.
      obtain ⟨hnow, -⟩ := ha.beats _ _ _ _ _ _ rfl
      have hover := h _ hy (hids.1.trans (hids.2.symm.trans hid))
        (hgenerations.1.trans (hgenerations.2.symm.trans hgen))
      rw [hnow] at hlease
      exact absurd hlease (not_lt.mpr hover)
  | opened hoverlay huser hid' =>
      rw [hid] at hid'
      rw [hid'] at hdrawn
      exact absurd hdrawn (ha.fresh _ _ _ rfl).1

-- =================================== returns

/-- Who plays is the player of the row of its user. -/
theorem plays_row (hi : Inv db) (hl : Listed players db)
    (hr : r ∈ db.playbacks) (hp : Plays playerID generation r)
    (hx : x ∈ db.players) (hid : x.playerID = playerID) :
    r.userID = x.userID ∧ x.generation = generation := by
  obtain ⟨y, hy, hu, hyid, hygen⟩ := hi.owned r hr hp.1
  rw [hp.2.1] at hyid
  rw [hp.2.2] at hygen
  cases hyid
  cases hygen
  have heq := hl.unique x hx y hy hid
  subst heq
  exact ⟨hu, rfl⟩

theorem surrendered_player {p : PlayerID}
    {g : Int} (hp : Plays playerID generation r)
    (h : r.Surrendered tokenHash p g now db) :
    p = playerID ∧ g = generation := by
  obtain ⟨-, -, -, -, hid, hgen⟩ := h
  rw [hp.2.1] at hid
  rw [hp.2.2] at hgen
  cases hid
  cases hgen
  exact ⟨rfl, rfl⟩

/-- A row that a token finds, and no other, is that of the player. -/
theorem dead_of_found (hl : Listed players db) (hnow : now ≤ clock)
    (hx : db.player? tokenHash playerID generation = some x)
    (hover : x.leaseExpiresAt ≤ now) :
    Dead playerID generation clock db := by
  obtain ⟨hmem, hid, -⟩ := Db.player?_eq_some hx
  intro y hy hyid _
  have heq := hl.unique y hy x hmem (hyid.trans hid.symm)
  rw [heq]
  exact le_trans hover hnow

/-- A claimed playback goes back to the queue only when its player is
over. -/
theorem dead_of_returns (hi : Inv db) (hl : Listed players db)
    (ha : Admits clock players db a) (hdrawn : playerID ∈ players)
    (hr : r ∈ db.playbacks) (hp : Plays playerID generation r)
    (h : a.Returns db r) : Dead playerID generation clock (apply db a) := by
  cases a with
  | openPlayer tokenHash candidateID now =>
      obtain ⟨-, overlay, current, -, hcurrent, hover, hassigned⟩ := h
      have hmem := Table.mem_of_get? hcurrent
      obtain ⟨-, hid, hgen⟩ := hassigned
      rw [hp.2.1] at hid
      cases hid
      refine Dead.next (fun x hx hxid _ => ?_) ha hdrawn
      have heq := hl.unique x hx current hmem hxid
      rw [heq]
      exact le_trans hover (ha.fresh _ _ _ rfl).2
  | heartbeat tokenHash p g active visible now =>
      obtain ⟨hwhy, hs⟩ := h
      obtain ⟨rfl, rfl⟩ := surrendered_player hp hs
      obtain ⟨hnow, hactive, hvisible⟩ := ha.beats _ _ _ _ _ _ rfl
      rcases hwhy with ⟨x, hx, hover⟩ | hidle | hidle
      · exact (dead_of_found hl (le_of_eq hnow) hx hover).next ha hdrawn
      · rw [hactive] at hidle
        cases hidle
      · rw [hvisible] at hidle
        cases hidle
  | releasePlayer tokenHash p g now =>
      obtain ⟨rfl, rfl⟩ := surrendered_player hp h
      obtain ⟨-, x, hx, hassigned⟩ := h
      intro y hy hyid hygen
      have hy : y ∈ (releasePlayer tokenHash p g now db).2.players := hy
      unfold releasePlayer at hy
      rw [hx] at hy
      obtain ⟨hmem, hid, -⟩ := Db.player?_eq_some hx
      obtain ⟨hy, hnot⟩ := Table.mem_delete.mp hy
      have heq := hl.unique y hy x hmem (hyid.trans hid.symm)
      exact absurd ⟨congrArg Player.userID heq, hyid, hygen⟩ hnot
  | setOverlayTokenHash userID tokenHash now =>
      obtain ⟨hfree, hu, -⟩ := h
      intro y hy hyid hygen
      have hy : y ∈ (setOverlayTokenHash userID tokenHash now
        db).2.players := hy
      unfold setOverlayTokenHash at hy
      simp only at hy
      split at hy
      case isTrue htaken => exact absurd htaken hfree
      case isFalse =>
        obtain ⟨hy, hnot⟩ := Table.mem_delete.mp hy
        have hrow := plays_row hi hl hr hp hy hyid
        exact absurd (hrow.1.symm.trans hu) hnot
  | streamState tokenHash p g now =>
      obtain ⟨⟨x, _, hx, -, hover⟩, hs⟩ := h
      obtain ⟨rfl, rfl⟩ := surrendered_player hp hs
      exact (dead_of_found hl (ha.polls _ _ _ _ rfl) hx hover).next ha
        hdrawn
  | claimPlayback tokenHash p g now locked =>
      obtain ⟨⟨x, _, hx, -, hover⟩, hs⟩ := h
      obtain ⟨rfl, rfl⟩ := surrendered_player hp hs
      exact (dead_of_found hl (ha.claims _ _ _ _ _ rfl) hx hover).next ha
        hdrawn
  | finishPlayback tokenHash p g playbackID outcome now =>
      cases outcome with
      | completed => exact h.elim
      | interrupted =>
          -- A page only interrupts what was started.
          obtain ⟨⟨hid, x, -, -, -, -, -, hassigned⟩, -, hnone, -⟩ := h
          have hstarted := ha.ends _ _ _ _ _ rfl r hr hid
          exact absurd hnone hstarted.2.1
  | _ => exact h.elim

-- ================================ what stays

/-- A playing row is played on, comes to its end or goes back. -/
theorem Plays.next {g : Grant} {has : UserID → AssetID → Prop}
    (hp : Plays playerID generation r) (h : Next has g r r') :
    r'.status.Terminal ∨ Plays playerID generation r' ∨ g.back r := by
  obtain ⟨hplay, hid, hgen⟩ := hp
  have hbusy : ¬ r.status.Waiting := by
    rw [hplay]
    simp [PlaybackStatus.Waiting]
  have hnot : r.status ≠ .preparing := by
    rw [hplay]
    decide
  rcases h with h | ⟨hpending, -⟩
  · cases h with
    | refl => exact .inr (.inl ⟨hplay, hid, hgen⟩)
    | expire hw => exact absurd hw hbusy
    | skip => exact .inl (.inr (.inl rfl))
    | claimPreparation _ hs => exact absurd hs hnot
    | abandonSpeech hs => exact absurd hs hnot
    | retry hs => exact absurd hs hnot
    | attachSpeech _ hs => exact absurd hs hnot
    | handBack hg => exact .inr (.inr hg)
    | lapse => exact .inl (.inr (.inr (.inl rfl)))
    | start => exact .inr (.inl ⟨hplay, hid, hgen⟩)
    | interrupt => exact .inl (.inr (.inr (.inr rfl)))
    | complete => exact .inl (.inl rfl)
    | releaseMedia _ hover => exact .inl hover
  · rw [hplay] at hpending
    cases hpending

theorem Started.next (hi : Inv db) (hnew : playbackID ∉ a.drawn)
    (h : Started playerID generation playbackID db) :
    Started playerID generation playbackID (apply db a) :=
  named hi hnew (fun _ _ _ hr hn => hr.next hn) h

theorem Ended.next (hi : Inv db) (hnew : playbackID ∉ a.drawn)
    (h : Ended playbackID db) : Ended playbackID (apply db a) :=
  named hi hnew (fun _ _ _ hr hn => Next.terminal hn hr) h

/-- What was handed to a player stays with it, or is handed on for good. -/
theorem Handed.next (hi : Inv db) (hl : Listed players db)
    (ha : Admits clock players db a) (hdrawn : playerID ∈ players)
    (hnew : playbackID ∉ a.drawn)
    (h : Handed playerID generation playbackID clock db) :
    Handed playerID generation playbackID clock (apply db a) := by
  rcases h with hdead | hrows
  · exact .inl (hdead.next ha hdrawn)
  · by_cases hdead : Dead playerID generation clock (apply db a)
    · exact .inl hdead
    · right
      refine named hi hnew (fun has r r' hr hn => ?_) hrows
      rcases hr with hover | hplays
      · exact .inl (Next.terminal hn hover)
      · rcases hplays.next hn with hover | hplays' | ⟨hmem, hreturns⟩
        · exact .inl hover
        · exact .inr hplays'
        · exact absurd
            (dead_of_returns hi hl ha hdrawn hmem hplays hreturns) hdead

theorem Handed.later (h : Handed playerID generation playbackID clock db)
    {t : Time} (ht : clock ≤ t) :
    Handed playerID generation playbackID t db :=
  h.imp_left fun hdead => hdead.later ht

-- ============================== what is told

/-- An acknowledged start is recorded. -/
theorem started_of_ok (hi : Inv db)
    (h : (startPlayback tokenHash playerID generation playbackID now db).1
      = .ok ()) :
    (∃ r ∈ db.playbacks, r.playbackID = playbackID
        ∧ r.playerID = some playerID
        ∧ r.playerGeneration = some generation)
      ∧ Started playerID generation playbackID
        (startPlayback tokenHash playerID generation playbackID now
          db).2 := by
  -- One row was met, and there is no other of the id.
  have hmet : ∃ r ∈ db.playbacks, r.playbackID = playbackID
      ∧ r.HeldBy tokenHash playerID generation playbackID now db
      ∧ r.status = .playing := by
    unfold startPlayback acknowledge at h
    simp only at h
    split at h
    case isFalse => cases h
    case isTrue hone =>
      by_contra hno
      have hzero : db.playbacks.count (fun r =>
          r.HeldBy tokenHash playerID generation playbackID now db
            ∧ r.status = .playing) = 0 := by
        rw [Table.count_eq_zero]
        intro r hr hp
        exact hno ⟨r, hr, hp.1.1, hp⟩
      rw [hzero] at hone
      cases hone
  obtain ⟨r, hr, hid, hheld⟩ := hmet
  obtain ⟨x, -, -, -, -, -, hassigned⟩ := hheld.1.2
  refine ⟨⟨r, hr, hid, hassigned.2⟩, fun r' hr' hid' => ?_⟩
  have hi' : Inv (apply db (.startPlayback tokenHash playerID generation
    playbackID now)) := hi.apply _
  have hshape := hi'.shape r' hr'
  unfold startPlayback at hr'
  rw [acknowledge_snd, Table.mem_update] at hr'
  obtain ⟨s, hs, he⟩ := hr'
  have hsid : s.playbackID = playbackID := by
    rw [← hid', ← he]
    split <;> rfl
  have heq := hi.ids s hs r hr (hsid.trans hid.symm)
  subst heq
  rw [if_pos hheld] at he
  subst he
  exact ⟨hshape, Option.some_ne_none _, hassigned.2.1, hassigned.2.2⟩

/-- A claim hands out what was waiting, and it plays. -/
theorem handed_of_claim (hi : Inv db) {locked : List Nat} {p : Playback}
    (h : (claimPlayback tokenHash playerID generation now locked db).1
      = .ok (some p)) :
    (∃ r ∈ db.playbacks, r.playbackID = p.playbackID
        ∧ r.status = .pending)
      ∧ Handed playerID generation p.playbackID clock
        (apply db (.claimPlayback tokenHash playerID generation now
          locked)) := by
  obtain ⟨r, hr, hpending, hassign, hmem⟩ := claimPlayback_claimed hi h
  have hi' : Inv (apply db (.claimPlayback tokenHash playerID generation
    now locked)) := hi.apply _
  refine ⟨⟨r, hr, ?_, hpending⟩, .inr fun s hs hid => .inr ?_⟩
  · rw [hassign]
    rfl
  · have heq := hi'.ids s hs p hmem hid
    rw [heq, hassign]
    exact ⟨rfl, rfl, rfl⟩

/-- While a player's lease runs, what was handed out to it and does not
play is over. -/
theorem ended_of_poll (hi : Inv db) (hl : Listed players db) {paused : Bool}
    (h : (streamState tokenHash playerID generation clock db).1
      = .ok (paused, none))
    (hnew : Handed playerID generation playbackID clock db) :
    Ended playbackID (streamState tokenHash playerID generation clock
      db).2 := by
  unfold streamState at h ⊢
  split at h
  case h_1 => cases h
  case h_2 player hplayer =>
    obtain ⟨hmem, hid, hgen, -⟩ := Db.player?_eq_some hplayer
    simp only at h ⊢
    split at h
    case h_1 => cases h
    case h_2 configuration hconfiguration =>
      split at h
      case isTrue => cases h
      case isFalse hlease =>
        rw [if_neg hlease]
        injection h with h
        injection h with _ hnone
        intro r' hr' hrid
        have hmem' := hr'
        unfold recoverTimedOutPlayback at hr'
        simp only [Table.mem_update] at hr'
        obtain ⟨r, hr, he⟩ := hr'
        have hsame : r.playbackID = playbackID := by
          rw [← hrid, ← he]
          split <;> rfl
        rcases hnew with hdead | hrows
        · exact absurd (hdead player hmem hid hgen) (not_le.mpr
            (not_not.mp hlease))
        · split at he
          case isTrue htimed =>
            subst he
            unfold Playback.timeOut
            simp only
            split
            · exact .inr (.inr (.inl rfl))
            · exact .inr (.inr (.inr rfl))
          case isFalse hnot =>
            subst he
            rcases hrows r hr hsame with hover | hplays
            · exact hover
            · obtain ⟨hu, -⟩ := plays_row hi hl hr hplays hmem hid
              have hfree := Table.first_eq_none.mp hnone r hmem'
              exact absurd ⟨⟨hu, hplays.2⟩, hplays.1⟩ hfree

end StreamBrew.Alert
