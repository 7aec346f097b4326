/-
Fencing of stale players and of rotated tokens.

# Stale callers

A caller is what it presents: token, player id and generation. It is
current while the player row of its token's user carries its id and
generation under a running lease. A stale caller finds at most its own
row with the lease over, and what its calls change is its own
(`Owned`): its playing playback is recovered and, on release, its
player row goes.

# Rotated tokens

The rows of a user are reached by a token only through the overlay
row. After a rotation no overlay row joins the user with the old token
(`Revoked`), and only setting that token again would change it, so a
call with the old token finds no row of the user, whatever else
happens in between.
-/
import StreamBrew.Alert.Proofs.Calls

namespace StreamBrew.Alert

open Relational

variable {now : Time} {c : Caller} {owner : UserID} {playerID : PlayerID}

variable {db db' : Db} {r r' : Playback}

-- =================================== callers

/-- What a player presents with a call. -/
structure Caller where
  tokenHash : TokenHash
  playerID : PlayerID
  generation : Int

/-- The token belongs to the user. -/
def Caller.Opens (c : Caller) (userID : UserID) (db : Db) : Prop :=
  ∃ overlay ∈ db.overlays, overlay.userID = userID
    ∧ overlay.tokenHash = c.tokenHash

/-- The playback is assigned to the caller. -/
def Caller.Holds (c : Caller) (db : Db) (r : Playback) : Prop :=
  c.Opens r.userID db ∧ r.AssignedTo r.userID c.playerID c.generation

/-- The player row is the caller's. -/
def Caller.Is (c : Caller) (db : Db) (player : Player) : Prop :=
  c.Opens player.userID db ∧ player.playerID = c.playerID
    ∧ player.generation = c.generation

/-- The caller is the current player, and its lease runs. -/
def Caller.Current (c : Caller) (now : Time) (db : Db) : Prop :=
  ∃ player ∈ db.players, c.Is db player ∧ now < player.leaseExpiresAt

/-- The caller of a player's call, and its clock reading. -/
def Action.caller : Action → Option (Caller × Time)
  | .heartbeat tokenHash playerID generation _ _ now
  | .streamState tokenHash playerID generation now
  | .claimPlayback tokenHash playerID generation now _
  | .startPlayback tokenHash playerID generation _ now
  | .finishPlayback tokenHash playerID generation _ _ now
  | .releasePlayer tokenHash playerID generation now =>
      some (⟨tokenHash, playerID, generation⟩, now)
  | _ => none

/-- Every row a call changed, added or deleted is the caller's own,
and no player row was written. -/
structure OnlyOwn (c : Caller) (db db' : Db) : Prop where
  kept : ∀ r ∈ db.playbacks, ¬ c.Holds db r → r ∈ db'.playbacks
  origin : ∀ r' ∈ db'.playbacks, r' ∈ db.playbacks
    ∨ ∃ r ∈ db.playbacks, c.Holds db r ∧ r'.queueSequence = r.queueSequence
  leases : ∀ player ∈ db'.players, player ∈ db.players
  players : ∀ player ∈ db.players, ¬ c.Is db player → player ∈ db'.players

theorem OnlyOwn.refl (c : Caller) (db : Db) : OnlyOwn c db db :=
  ⟨fun _ hr _ => hr, fun _ hr => Or.inl hr, fun _ hp => hp,
    fun _ hp _ => hp⟩

/-- A stale caller that finds a row finds it with the lease over. -/
theorem stale_lease {player : Player} (hstale : ¬ c.Current now db)
    (h : db.player? c.tokenHash c.playerID c.generation = some player) :
    c.Is db player ∧ ¬ player.leaseExpiresAt > now := by
  obtain ⟨hmem, hid, hgen, overlay, ho, hou, hot⟩ := Db.player?_eq_some h
  have his : c.Is db player := ⟨⟨overlay, ho, hou, hot⟩, hid, hgen⟩
  exact ⟨his, fun hlease => hstale ⟨player, hmem, his, hlease⟩⟩

/-- Recovering the playback of its caller changes only its caller's. -/
theorem onlyOwn_recover {player : Player} (now : Time)
    (his : c.Is db player) :
    OnlyOwn c db (recoverAssignedPlayback player.userID c.playerID
      c.generation now .playerDisconnected db) := by
  have hholds : ∀ r : Playback,
      r.AssignedTo player.userID c.playerID c.generation →
      c.Holds db r := by
    rintro r ⟨hu, hid, hgen⟩
    exact ⟨hu ▸ his.1, rfl, hid, hgen⟩
  constructor
  case kept =>
    intro r hr hnot
    unfold recoverAssignedPlayback
    rw [Table.mem_update]
    exact ⟨r, hr, if_neg fun h => hnot (hholds r h.1)⟩
  case origin =>
    intro r' hr'
    unfold recoverAssignedPlayback at hr'
    rw [Table.mem_update] at hr'
    obtain ⟨r, hr, he⟩ := hr'
    split at he
    case isTrue hp =>
      subst he
      exact Or.inr ⟨r, hr, hholds r hp.1, rfl⟩
    case isFalse => exact Or.inl (he ▸ hr)
  case leases => exact fun player hp => hp
  case players => exact fun player hp _ => hp

/-- A stale caller's acknowledgement meets no row. -/
theorem acknowledge_stale
    {playbackID : PlaybackID} {p : Playback → Prop} [DecidablePred p]
    {f : Playback → Playback}
    {hf : ∀ r, (f r).queueSequence = r.queueSequence}
    (hstale : ¬ c.Current now db)
    (hp : ∀ r, p r → r.HeldBy c.tokenHash c.playerID c.generation
      playbackID now db) : (acknowledge p f hf db).2 = db := by
  rw [acknowledge_snd, Table.update_eq_self]
  intro r _ hpr
  obtain ⟨-, player, hmem, hid, hgen, hlease, hover, -⟩ := hp r hpr
  exact hstale ⟨player, hmem, ⟨hover, hid, hgen⟩, hlease⟩

/-- A stale caller changes only what is its own. -/
theorem onlyOwn_of_stale {a : Action}
    (ha : a.caller = some (c, now)) (hstale : ¬ c.Current now db) :
    OnlyOwn c db (apply db a) := by
  cases a with
  | heartbeat tokenHash playerID generation active visible at' =>
      cases ha
      show OnlyOwn _ db (heartbeat tokenHash playerID generation active
        visible now db).2
      unfold heartbeat
      split
      case h_1 => exact .refl _ db
      case h_2 player hplayer =>
        obtain ⟨his, hover⟩ := stale_lease hstale hplayer
        simp only [hover, not_false_eq_true, if_true]
        exact onlyOwn_recover now his
  | streamState tokenHash playerID generation at' =>
      cases ha
      show OnlyOwn _ db (streamState tokenHash playerID generation now db).2
      unfold streamState
      split
      case h_1 => exact .refl _ db
      case h_2 player hplayer =>
        obtain ⟨his, hover⟩ := stale_lease hstale hplayer
        simp only
        split
        case h_1 => exact .refl _ db
        case h_2 =>
          simp only [hover, not_false_eq_true, if_true]
          exact onlyOwn_recover now his
  | claimPlayback tokenHash playerID generation at' locked =>
      cases ha
      show OnlyOwn _ db
        (claimPlayback tokenHash playerID generation now locked db).2
      unfold claimPlayback
      split
      case h_1 => exact .refl _ db
      case h_2 player hplayer =>
        obtain ⟨his, hover⟩ := stale_lease hstale hplayer
        simp only
        split
        case h_1 => exact .refl _ db
        case h_2 =>
          simp only [hover, not_false_eq_true, if_true]
          exact onlyOwn_recover now his
  | startPlayback tokenHash playerID generation playbackID at' =>
      cases ha
      have heq : apply db (.startPlayback tokenHash playerID generation
          playbackID now) = db :=
        acknowledge_stale hstale fun r hr => hr.1
      rw [heq]
      exact .refl _ db
  | finishPlayback tokenHash playerID generation playbackID outcome at' =>
      cases ha
      have heq : apply db (.finishPlayback tokenHash playerID generation
          playbackID outcome now) = db := by
        cases outcome with
        | completed => exact acknowledge_stale hstale fun r hr => hr.1
        | interrupted => exact acknowledge_stale hstale fun r hr => hr.1
      rw [heq]
      exact .refl _ db
  | releasePlayer tokenHash playerID generation at' =>
      cases ha
      show OnlyOwn _ db
        (releasePlayer tokenHash playerID generation now db).2
      unfold releasePlayer
      split
      case h_1 => exact .refl _ db
      case h_2 player hplayer =>
        obtain ⟨his, -⟩ := stale_lease hstale hplayer
        have hrecover := onlyOwn_recover now his
        refine ⟨hrecover.kept, hrecover.origin, fun p hp => ?_,
          fun p hp hnot => ?_⟩
        · exact (Table.mem_delete.mp hp).1
        · refine Table.mem_delete.mpr ⟨hp, ?_⟩
          rintro ⟨hu, hid, hgen⟩
          exact hnot ⟨hu ▸ his.1, hid, hgen⟩
  | _ => cases ha

-- ==================================== tokens

/-- The token a call is authorized by. -/
def Action.token : Action → Option TokenHash
  | .openPlayer tokenHash _ _
  | .heartbeat tokenHash _ _ _ _ _
  | .streamState tokenHash _ _ _
  | .claimPlayback tokenHash _ _ _ _
  | .startPlayback tokenHash _ _ _ _
  | .finishPlayback tokenHash _ _ _ _ _
  | .releasePlayer tokenHash _ _ _
  | .recordPlaybackDiagnostic tokenHash _ _ _ _ _ => some tokenHash
  | _ => none

/-- The user's overlay does not have the token. -/
def Revoked (userID : UserID) (tokenHash : TokenHash) (db : Db) : Prop :=
  ∀ overlay ∈ db.overlays, overlay.userID = userID →
    overlay.tokenHash ≠ tokenHash

/-- All rows of the user are the same in both states. -/
structure SameRows (userID : UserID) (db db' : Db) : Prop where
  configurations : ∀ c, c.userID = userID →
    (c ∈ db'.configurations ↔ c ∈ db.configurations)
  alertSources : ∀ s, s.userID = userID →
    (s ∈ db'.alertSources ↔ s ∈ db.alertSources)
  overlays : ∀ o, o.userID = userID →
    (o ∈ db'.overlays ↔ o ∈ db.overlays)
  players : ∀ p, p.userID = userID → (p ∈ db'.players ↔ p ∈ db.players)
  assets : ∀ a, a.userID = userID → (a ∈ db'.assets ↔ a ∈ db.assets)
  playbacks : ∀ r, r.userID = userID →
    (r ∈ db'.playbacks ↔ r ∈ db.playbacks)
  rendererDiagnostics : ∀ d, d.userID = userID →
    (d ∈ db'.rendererDiagnostics ↔ d ∈ db.rendererDiagnostics)
  donations : ∀ d, d.userID = userID →
    (d ∈ db'.donations ↔ d ∈ db.donations)

namespace SameRows

variable {userID : UserID}

theorem refl (userID : UserID) (db : Db) : SameRows userID db db := by
  constructor <;> exact fun _ _ => Iff.rfl

theorem trans {db₁ db₂ db₃ : Db} (h : SameRows userID db₁ db₂)
    (h' : SameRows userID db₂ db₃) : SameRows userID db₁ db₃ where
  configurations c hc := (h'.configurations c hc).trans
    (h.configurations c hc)
  alertSources s hs := (h'.alertSources s hs).trans (h.alertSources s hs)
  overlays o ho := (h'.overlays o ho).trans (h.overlays o ho)
  players p hp := (h'.players p hp).trans (h.players p hp)
  assets a ha := (h'.assets a ha).trans (h.assets a ha)
  playbacks r hr := (h'.playbacks r hr).trans (h.playbacks r hr)
  rendererDiagnostics d hd := (h'.rendererDiagnostics d hd).trans
    (h.rendererDiagnostics d hd)
  donations d hd := (h'.donations d hd).trans (h.donations d hd)

/-- An update of other users' rows. -/
private theorem update_iff {α κ : Type} {key : α → κ} {t : Table key}
    {p : α → Prop} [DecidablePred p] {f : α → α}
    (hf : ∀ a, key (f a) = key a) {owner : α → UserID}
    (hp : ∀ a ∈ t, p a → owner a ≠ userID ∧ owner (f a) = owner a) (a : α)
    (ha : owner a = userID) : a ∈ t.update p f hf ↔ a ∈ t := by
  rw [Table.mem_update]
  constructor
  · rintro ⟨b, hb, he⟩
    split at he
    case isTrue hpb =>
      obtain ⟨hne, heq⟩ := hp b hb hpb
      rw [he] at heq
      exact absurd (heq.symm.trans ha) hne
    case isFalse => exact he ▸ hb
  · intro ha'
    exact ⟨a, ha', if_neg fun hpa => (hp a ha' hpa).1 ha⟩

/-- A statement that updates playbacks of other users. -/
theorem updatePlaybacks {p : Playback → Prop} [DecidablePred p]
    {f : Playback → Playback}
    {hf : ∀ r, (f r).queueSequence = r.queueSequence}
    (hp : ∀ r ∈ db.playbacks, p r → r.userID ≠ userID
      ∧ (f r).userID = r.userID) :
    SameRows userID db
      { db with playbacks := db.playbacks.update p f hf } := by
  constructor
  case playbacks => exact fun r hr => update_iff hf hp r hr
  all_goals exact fun _ _ => Iff.rfl

/-- A statement that changes player rows of other users. -/
theorem changePlayers {players : Table Player.userID}
    (h : ∀ p : Player, p.userID = userID →
      (p ∈ players ↔ p ∈ db.players)) :
    SameRows userID db { db with players } := by
  constructor
  case players => exact h
  all_goals exact fun _ _ => Iff.rfl

theorem recover {generation : Int} {reason : DiagnosticCode}
    (hne : owner ≠ userID) :
    SameRows userID db (recoverAssignedPlayback owner playerID generation
      now reason db) :=
  updatePlaybacks fun _ _ hp => ⟨fun he => hne (hp.1.1.symm.trans he), rfl⟩

theorem timeOut (hne : owner ≠ userID) :
    SameRows userID db (recoverTimedOutPlayback owner now db) :=
  updatePlaybacks fun _ _ hp => ⟨fun he => hne (hp.1.symm.trans he), rfl⟩

theorem expire (hne : owner ≠ userID) :
    SameRows userID db (expireBacklog owner now db) :=
  updatePlaybacks fun _ _ hp => ⟨fun he => hne (hp.1.1.symm.trans he), rfl⟩

theorem connect (hne : owner ≠ userID) :
    SameRows userID db (connectPlayer owner playerID now db) := by
  refine changePlayers fun p hp => ?_
  rw [Table.mem_upsert]
  constructor
  · rintro (⟨rfl, -⟩ | ⟨q, hq, he⟩)
    · exact absurd hp hne
    · split at he
      case isTrue hk =>
        subst he
        exact absurd (hk.symm.trans hp) hne
      case isFalse => exact he ▸ hq
  · intro hmem
    exact Or.inr ⟨p, hmem, if_neg fun hk => hne (hk.symm.trans hp)⟩

end SameRows

variable {userID : UserID} {tokenHash : TokenHash}

/-- A revoked token finds no player row of the user. -/
theorem Revoked.player? (h : Revoked userID tokenHash db)
    {generation : Int} {player : Player}
    (hp : db.player? tokenHash playerID generation = some player) :
    player.userID ≠ userID := by
  obtain ⟨-, -, -, overlay, ho, hou, hot⟩ := Db.player?_eq_some hp
  exact fun hu => h overlay ho (hou.trans hu) hot

/-- A revoked token holds no playback of the user. -/
theorem Revoked.heldBy (h : Revoked userID tokenHash db)
    {generation : Int} {playbackID : PlaybackID}
    (hr : r.HeldBy tokenHash playerID generation playbackID now db) :
    r.userID ≠ userID := by
  obtain ⟨-, player, -, -, -, -, ⟨overlay, ho, hou, hot⟩, hassigned⟩ := hr
  exact fun hu => h overlay ho
    (hou.trans (hassigned.1.symm.trans hu)) hot

/-- An acknowledgement with a revoked token. -/
private theorem sameRows_acknowledge {p : Playback → Prop}
    [DecidablePred p] {f : Playback → Playback}
    {hf : ∀ r, (f r).queueSequence = r.queueSequence}
    (hp : ∀ r, p r → r.userID ≠ userID)
    (hu : ∀ r, (f r).userID = r.userID) :
    SameRows userID db (acknowledge p f hf db).2 := by
  rw [acknowledge_snd]
  exact .updatePlaybacks fun r _ hpr => ⟨hp r hpr, hu r⟩

/-- Polling for work with a revoked token. -/
private theorem sameRows_claimPlayback (hi : Inv db)
    (hrev : Revoked userID tokenHash db) (playerID : PlayerID)
    (generation : Int) (now : Time) (locked : List Nat) :
    SameRows userID db
      (claimPlayback tokenHash playerID generation now locked db).2 := by
  unfold claimPlayback
  split
  case h_1 => exact .refl userID db
  case h_2 player hplayer =>
    have hne := hrev.player? hplayer
    simp only
    split
    case h_1 => exact .refl userID db
    case h_2 =>
      split
      case isTrue => exact .recover hne
      case isFalse =>
        have htimeOut : Effect {} db _ :=
          effect_recoverTimedOutPlayback player.userID now
        have hi₂ := (hi.effect htimeOut).effect (g := {})
          (effect_expireBacklog player.userID now)
        have hswept : SameRows userID db (expireBacklog player.userID now
            (recoverTimedOutPlayback player.userID now db)) :=
          (SameRows.timeOut hne).trans (.expire hne)
        split
        case isTrue => exact hswept
        case isFalse =>
          split
          case h_1 => exact hswept
          case h_2 candidate hfirst =>
            obtain ⟨hmem, ⟨hu, -⟩, -⟩ := Table.first_eq_some hfirst
            have hassign : ∀ r ∈ (expireBacklog player.userID now
                (recoverTimedOutPlayback player.userID now db)).playbacks,
                r.playbackID = candidate.playbackID →
                r.userID ≠ userID
                  ∧ (r.assign playerID generation).userID = r.userID := by
              intro r hr hid
              rw [hi₂.ids r hr candidate hmem hid]
              exact ⟨hu ▸ hne, rfl⟩
            split <;> exact hswept.trans (.updatePlaybacks hassign)

/-- Reporting with a revoked token. -/
private theorem sameRows_recordPlaybackDiagnostic (hi : Inv db)
    (hrev : Revoked userID tokenHash db) (playerID : PlayerID)
    (generation : Int) (playbackID : PlaybackID) (code : DiagnosticCode)
    (now : Time) :
    SameRows userID db (recordPlaybackDiagnostic tokenHash playerID
      generation playbackID code now db).2 := by
  unfold recordPlaybackDiagnostic
  split
  case isTrue => exact .refl userID db
  case isFalse =>
    split
    case h_1 => exact .refl userID db
    case h_2 r hfound =>
      obtain ⟨hr, hheld, -⟩ := Table.find?_eq_some hfound
      have hne := hrev.heldBy hheld
      constructor
      case rendererDiagnostics =>
        intro d hd
        rw [Table.mem_upsert]
        constructor
        · rintro (⟨rfl, -⟩ | ⟨b, hb, he⟩)
          · exact absurd hd hne
          · split at he
            case isFalse => exact he ▸ hb
            case isTrue hk =>
              -- the diagnostic under this key is about the same playback
              obtain ⟨s, hs, hsid, hsu⟩ := hi.diagnosed b hb
              have hid : b.playbackID = r.playbackID :=
                congrArg Prod.fst hk
              have heq := hi.ids s hs r hr (hsid.trans hid)
              subst heq he
              exact absurd (hsu.trans hd) hne
        · intro hmem
          refine Or.inr ⟨d, hmem, if_neg fun hk => ?_⟩
          obtain ⟨s, hs, hsid, hsu⟩ := hi.diagnosed d hmem
          have hid : d.playbackID = r.playbackID := congrArg Prod.fst hk
          have heq := hi.ids s hs r hr (hsid.trans hid)
          subst heq
          exact hne (hsu.trans hd)
      all_goals exact fun _ _ => Iff.rfl

/-- A call with a revoked token changes no row of the user. -/
theorem sameRows_of_revoked (hi : Inv db) {a : Action}
    (ha : a.token = some tokenHash)
    (hrev : Revoked userID tokenHash db) :
    SameRows userID db (apply db a) := by
  cases a with
  | openPlayer token candidateID now =>
      cases ha
      show SameRows userID db (openPlayer tokenHash candidateID now db).2
      unfold openPlayer
      split
      case h_1 => exact .refl userID db
      case h_2 overlay ho =>
        obtain ⟨hmem, hot⟩ := Table.find?_eq_some ho
        have hne : overlay.userID ≠ userID :=
          fun hu => hrev overlay hmem hu hot
        simp only
        split
        case h_1 => exact .connect hne
        case h_2 =>
          split
          case isTrue => exact .refl userID db
          case isFalse => exact (SameRows.recover hne).trans (.connect hne)
  | heartbeat token playerID generation active visible now =>
      cases ha
      show SameRows userID db (heartbeat tokenHash playerID generation
        active visible now db).2
      unfold heartbeat
      split
      case h_1 => exact .refl userID db
      case h_2 player hplayer =>
        have hne := hrev.player? hplayer
        simp only
        split
        case isTrue => exact .recover hne
        case isFalse =>
          have hrenew : SameRows userID db { db with
              players := db.players.update
                (fun p => p.userID = player.userID
                  ∧ p.playerID = playerID ∧ p.generation = generation)
                (fun p => { p with
                  active, visible
                  lastSeenAt := jsDate now
                  leaseExpiresAt := jsDate (now + playerLease) })
                (Table.keeps rfl) } :=
            .changePlayers (SameRows.update_iff (Table.keeps rfl)
              fun p _ hp => ⟨fun hu => hne (hp.1.symm.trans hu), rfl⟩)
          split
          case isTrue => exact hrenew.trans (.recover hne)
          case isFalse => exact hrenew
  | streamState token playerID generation now =>
      cases ha
      show SameRows userID db
        (streamState tokenHash playerID generation now db).2
      unfold streamState
      split
      case h_1 => exact .refl userID db
      case h_2 player hplayer =>
        have hne := hrev.player? hplayer
        simp only
        split
        case h_1 => exact .refl userID db
        case h_2 =>
          split
          case isTrue => exact .recover hne
          case isFalse => exact .timeOut hne
  | claimPlayback token playerID generation now locked =>
      cases ha
      exact sameRows_claimPlayback hi hrev playerID generation now locked
  | startPlayback token playerID generation playbackID now =>
      cases ha
      exact sameRows_acknowledge (fun r hr => hrev.heldBy hr.1)
        fun _ => rfl
  | finishPlayback token playerID generation playbackID outcome now =>
      cases ha
      cases outcome with
      | completed =>
          exact sameRows_acknowledge (fun r hr => hrev.heldBy hr.1)
            fun _ => rfl
      | interrupted =>
          exact sameRows_acknowledge (fun r hr => hrev.heldBy hr.1)
            fun _ => rfl
  | releasePlayer token playerID generation now =>
      cases ha
      show SameRows userID db
        (releasePlayer tokenHash playerID generation now db).2
      unfold releasePlayer
      split
      case h_1 => exact .refl userID db
      case h_2 player hplayer =>
        have hne := hrev.player? hplayer
        refine (SameRows.recover hne).trans (.changePlayers fun p hp => ?_)
        rw [Table.mem_delete]
        exact ⟨And.left, fun hmem =>
          ⟨hmem, fun hdel => hne (hdel.1.symm.trans hp)⟩⟩
  | recordPlaybackDiagnostic token playerID generation playbackID code
      now =>
      cases ha
      exact sameRows_recordPlaybackDiagnostic hi hrev playerID generation
        playbackID code now
  | _ => cases ha

-- ====================================== runs

/-- Setting another token revokes the one before. -/
theorem revoked_of_rotate {fresh : TokenHash} (hne : fresh ≠ tokenHash)
    (hok : (setOverlayTokenHash userID fresh now db).1 = .ok ()) :
    Revoked userID tokenHash
      (apply db (.setOverlayTokenHash userID fresh now)) := by
  intro o ho hu
  have ho' : o ∈ (setOverlayTokenHash userID fresh now db).2.overlays := ho
  unfold setOverlayTokenHash at ho' hok
  simp only at ho' hok
  split at ho'
  case isTrue htaken =>
    rw [if_pos htaken] at hok
    cases hok
  case isFalse =>
    rcases Table.mem_upsert.mp ho' with ⟨rfl, -⟩ | ⟨b, -, he⟩
    · exact hne
    · split at he
      case isTrue =>
        subst he
        exact hne
      case isFalse hk =>
        subst he
        exact absurd hu hk

/-- A revoked token stays revoked until the user is given it again. -/
theorem Revoked.apply (hi : Inv db) (h : Revoked userID tokenHash db)
    {a : Action} (ha : ∀ now, a ≠ .setOverlayTokenHash userID tokenHash now) :
    Revoked userID tokenHash (apply db a) := by
  have hsteps := apply_steps hi a
  have hrotate : ¬ (a.grant db).rotate userID tokenHash :=
    fun ⟨now, he⟩ => ha now he
  have hgen : ∀ db', Steps (a.grant db) db db' →
      Revoked userID tokenHash db' := by
    intro db' h'
    induction h' with
    | refl => exact h
    | tail _ heffect ih =>
        cases heffect with
        | rotate overlays hnew =>
            intro o ho hu ht
            rcases hnew o ho with hold | hgrant
            · exact ih o hold hu ht
            · exact hrotate (hu ▸ ht ▸ hgrant)
        | insert _ hins =>
            obtain ⟨-, playbacks, -, rfl⟩ := Db.insertPlayback_eq_some hins
            exact ih
        | _ => exact ih
  exact hgen _ hsteps

/-- Stale players and rotated tokens, on every run. A player's call
whose caller is not the current player of its token's user, or whose
lease is over, changes no playback of another player or generation and
neither writes nor deletes another player's row. After a token is
replaced, and until the user is given it again, no sequence of calls
made with it changes a row of the user. -/
theorem stale_calls_fenced (acts : List Action) :
    let db := Run.run apply Db.init acts
    (∀ a c now, a.caller = some (c, now) → ¬ c.Current now db →
        OnlyOwn c db (apply db a))
      ∧ ∀ userID fresh old now, fresh ≠ old →
        (setOverlayTokenHash userID fresh now db).1 = .ok () →
        ∀ later : List Action,
          (∀ a ∈ later, ∀ now, a ≠ .setOverlayTokenHash userID old now) →
          ∀ calls : List Action, (∀ a ∈ calls, a.token = some old) →
            let rotated := Run.run apply
              (apply db (.setOverlayTokenHash userID fresh now)) later
            SameRows userID rotated (Run.run apply rotated calls) := by
  intro db
  have hi : Inv db := Reachable.inv ⟨acts, rfl⟩
  refine ⟨fun a c now ha hstale => onlyOwn_of_stale ha hstale, ?_⟩
  intro userID fresh old now hne hok later hlater calls hcalls rotated
  have hrotated : Inv rotated ∧ Revoked userID old rotated := by
    refine Run.run_preserves_of_mem
      (P := fun db => Inv db ∧ Revoked userID old db)
      ⟨hi.apply _, revoked_of_rotate hne hok⟩ fun s a ha hs => ?_
    exact ⟨hs.1.apply a, hs.2.apply hs.1 (hlater a ha)⟩
  have hall : Inv (Run.run apply rotated calls)
      ∧ Revoked userID old (Run.run apply rotated calls)
      ∧ SameRows userID rotated (Run.run apply rotated calls) := by
    refine Run.run_preserves_of_mem (P := fun db => Inv db
      ∧ Revoked userID old db ∧ SameRows userID rotated db)
      ⟨hrotated.1, hrotated.2, .refl userID rotated⟩ fun s a ha hs => ?_
    obtain ⟨his, hrev, hsame⟩ := hs
    have hstep := sameRows_of_revoked his (hcalls a ha) hrev
    refine ⟨his.apply a, hrev.apply his fun t he => ?_, hsame.trans hstep⟩
    have htoken := hcalls a ha
    rw [he] at htoken
    cases htoken
  exact hall.2.2

end StreamBrew.Alert
