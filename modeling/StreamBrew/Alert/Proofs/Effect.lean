/-
What one SQL statement may do to the alert tables, and the invariant
that every statement keeps.

# Statements

A store call is a handful of statements. `Effect` is one of them, with
what the call has checked before it: rows follow the diagram, one row
is claimed by a player, a row is inserted, history is deleted, or
another table changes while the references into it stay good. `Steps`
is a call: effects in a row. The invariant holds between the
statements of a call, not only between calls, so one case analysis
over `Effect` is all there is to preserving it.

# Following a row

`Effect.origin` says where a row of the next state comes from and
`Effect.kept` where a row goes to. Between them is one arrow of the
diagram or a claim (`Next`), so what a row keeps is read off `Next`.
-/
import Mathlib.Logic.Relation
import StreamBrew.Lib.TicketQueue
import StreamBrew.Alert.Proofs.Move

namespace StreamBrew.Alert

open Relational

-- ================================ vocabulary

/-- The user has the media file. -/
def Db.Has (db : Db) (userID : UserID) (assetID : AssetID) : Prop :=
  ∃ a ∈ db.assets, a.assetID = assetID ∧ a.userID = userID

/-- The configuration selects the media file. -/
def Configuration.Selects (c : Configuration) (assetID : AssetID) : Prop :=
  c.imageAssetID = some assetID ∨ c.soundAssetID = some assetID

/-- The playback names its user's current player row. -/
def Playback.OwnedIn (players : Table Player.userID) (r : Playback) :
    Prop :=
  ∃ p ∈ players, r.AssignedTo p.userID p.playerID p.generation

/-- The diagnostic is about this playback. -/
def RendererDiagnostic.About (d : RendererDiagnostic) (r : Playback) :
    Prop :=
  r.playbackID = d.playbackID ∧ r.userID = d.userID

/-- Where the playback stands in its user's queue. -/
def Playback.stage (r : Playback) : Option TicketQueue.Stage :=
  if r.status.Waiting then some .waiting
  else if r.status = .playing ∧ r.startedAt = none then some .claimed
  else none

/-- The playbacks of one user as a queue of sequence numbers. -/
def Db.queue (db : Db) (userID : UserID) : TicketQueue.Queue Nat where
  stage n := (db.playbacks.get? n).bind fun r =>
    if r.userID = userID then r.stage else none
  issued := {n | n ≤ db.sequence}

/-- The invariant of the alert tables. -/
structure Inv (db : Db) : Prop where
  bound : ∀ r ∈ db.playbacks, r.queueSequence ≤ db.sequence
  ids : ∀ r ∈ db.playbacks, ∀ s ∈ db.playbacks,
    r.playbackID = s.playbackID → r = s
  shape : ∀ r ∈ db.playbacks, r.WellShaped
  single : ∀ r ∈ db.playbacks, ∀ s ∈ db.playbacks, r.userID = s.userID →
    r.status = .playing → s.status = .playing → r = s
  owned : ∀ r ∈ db.playbacks, r.status = .playing → r.OwnedIn db.players
  queue : ∀ userID, TicketQueue.Inv (db.queue userID)
  references : ∀ r ∈ db.playbacks, ∀ a, r.References a →
    db.Has r.userID a
  selected : ∀ c ∈ db.configurations, ∀ a, c.Selects a →
    db.Has c.userID a
  incoming : ∀ r ∈ db.playbacks, ∀ s ∈ db.playbacks,
    r.kind = .incoming → s.kind = .incoming →
    r.donationID = s.donationID → r = s
  diagnosed : ∀ d ∈ db.rendererDiagnostics, ∃ r ∈ db.playbacks, d.About r

/-- One statement of a call with grant `g`. -/
inductive Effect (g : Grant) (db : Db) : Db → Prop
  /-- rows follow the diagram -/
  | move {p : Playback → Prop} [DecidablePred p] {f : Playback → Playback}
      {hf : ∀ r, (f r).queueSequence = r.queueSequence}
      (h : ∀ r ∈ db.playbacks, p r → Move db.Has g r (f r)) :
      Effect g db { db with playbacks := db.playbacks.update p f hf }
  /-- the head of a queue goes to the user's player -/
  | claim {r : Playback} {player : Player}
      (hf : ∀ s, (Playback.assign player.playerID player.generation
        s).queueSequence = s.queueSequence)
      (hr : r ∈ db.playbacks)
      (hpending : r.status = .pending)
      (hplayer : player ∈ db.players) (huser : player.userID = r.userID)
      (hfree : ∀ s ∈ db.playbacks, s.userID = r.userID →
        s.status ≠ .playing)
      (hleast : ∀ s ∈ db.playbacks, s.InBacklog r.userID →
        r.queueSequence ≤ s.queueSequence) :
      Effect g db { db with
        playbacks := db.playbacks.update
          (fun s => s.playbackID = r.playbackID)
          (Playback.assign player.playerID player.generation) hf }
  /-- a row is queued -/
  | insert {draw : Draw} {userID : UserID} {snapshot : Snapshot}
      {status : PlaybackStatus} {db' : Db}
      (hg : g.queue userID)
      (hins : db.insertPlayback draw userID snapshot status = some db')
      (hstatus : status.Waiting)
      (hmessage : status = .preparing → snapshot.message ≠ none)
      (hrefs : ∀ a, snapshot.imageAssetID = some a
        ∨ snapshot.soundAssetID = some a → db.Has userID a)
      (hincoming : snapshot.kind = .incoming →
        ∃ d, snapshot.donationID = some d ∧ g.incoming d
          ∧ ¬ HasIncoming d db) :
      Effect g db db'
  /-- history is deleted -/
  | prune {p : Playback → Prop} [DecidablePred p]
      (hp : ∀ r ∈ db.playbacks, p r → g.retire r ∧ r.status.Terminal)
      (rendererDiagnostics : Table RendererDiagnostic.key)
      (hdiag : ∀ d ∈ rendererDiagnostics, d ∈ db.rendererDiagnostics
        ∧ ∀ r ∈ db.playbacks, d.About r → ¬ p r) :
      Effect g db { db with
        playbacks := db.playbacks.delete p, rendererDiagnostics }
  /-- the player table changes, playing rows keep their player -/
  | players (players : Table Player.userID)
      (howned : ∀ r ∈ db.playbacks, r.status = .playing →
        r.OwnedIn db.players → r.OwnedIn players) :
      Effect g db { db with players }
  /-- media or configurations change, no reference is lost -/
  | media (assets : Table Asset.assetID)
      (configurations : Table Configuration.userID) (alertSources)
      (hkeep : ∀ r ∈ db.playbacks, ∀ a, r.References a →
        db.Has r.userID a → { db with assets }.Has r.userID a)
      (hselect : ∀ c ∈ configurations, ∀ a, c.Selects a →
        { db with assets }.Has c.userID a) :
      Effect g db { db with assets, configurations, alertSources }
  /-- donations are stored -/
  | donate (donations : Table Donation.donationID)
      (hkeep : ∀ d ∈ db.donations, d ∈ donations)
      (hnew : ∀ d ∈ donations, d ∈ db.donations ∨ g.donate d) :
      Effect g db { db with donations }
  /-- an overlay gets a token -/
  | rotate (overlays : Table Overlay.userID)
      (hnew : ∀ o ∈ overlays, o ∈ db.overlays
        ∨ g.rotate o.userID o.tokenHash) :
      Effect g db { db with overlays }
  /-- diagnostics are recorded -/
  | diagnose (rendererDiagnostics : Table RendererDiagnostic.key)
      (hdiag : ∀ d ∈ rendererDiagnostics, ∃ r ∈ db.playbacks, d.About r) :
      Effect g db { db with rendererDiagnostics }

/-- The statements of a call with grant `g`. -/
abbrev Steps (g : Grant) : Db → Db → Prop :=
  Relation.ReflTransGen (Effect g)

variable {g : Grant} {db db' : Db} {r r' : Playback}

-- ================================= insertion

/-- What an insert that went through has added. -/
theorem Db.insertPlayback_eq_some {draw : Draw} {userID : UserID}
    {snapshot : Snapshot} {status : PlaybackStatus}
    (h : db.insertPlayback draw userID snapshot status = some db') :
    (∀ r ∈ db.playbacks, r.playbackID ≠ draw.playbackID)
      ∧ ∃ playbacks, db.playbacks.insert?
          (draw.playback db.sequence userID snapshot status)
          = some playbacks
        ∧ db' = { db with
            playbacks, sequence := db.sequence + 1 + draw.gap } := by
  unfold Db.insertPlayback at h
  simp only at h
  split at h
  case isTrue => cases h
  case isFalse hid =>
    obtain ⟨playbacks, hins, rfl⟩ := Option.map_eq_some_iff.mp h
    refine ⟨fun r hr he => hid ⟨r, hr, he⟩, playbacks, hins, rfl⟩

-- ================================== next row

/-- One statement seen from one row. -/
def Next (has : UserID → AssetID → Prop) (g : Grant)
    (r r' : Playback) : Prop :=
  Move has g r r' ∨ (r.status = .pending
    ∧ ∃ playerID generation, r' = r.assign playerID generation)

/-- A row as it is inserted. -/
structure Playback.New (g : Grant) (db db' : Db) (r : Playback) : Prop where
  granted : g.queue r.userID
  waiting : r.status.Waiting
  above : db.sequence < r.queueSequence
  last : r.queueSequence = db'.sequence
  id : ∀ s ∈ db.playbacks, s.playbackID ≠ r.playbackID
  message : r.status = .preparing → r.message ≠ none
  incoming : r.kind = .incoming → ∀ s ∈ db.playbacks,
    s.kind = .incoming → s.donationID ≠ r.donationID
  accepted : r.kind = .incoming →
    ∃ d, r.donationID = some d ∧ g.incoming d
  references : ∀ a, r.References a → db.Has r.userID a
  blank : ∃ (draw : Draw) (userID : UserID) (snapshot : Snapshot)
    (status : PlaybackStatus),
    r = draw.playback db.sequence userID snapshot status

namespace Next

variable {has : UserID → AssetID → Prop}

theorem queueSequence (h : Next has g r r') :
    r'.queueSequence = r.queueSequence := by
  rcases h with h | ⟨-, p, n, rfl⟩
  · exact h.queueSequence
  · rfl

theorem playbackID (h : Next has g r r') :
    r'.playbackID = r.playbackID := by
  rcases h with h | ⟨-, p, n, rfl⟩
  · exact h.playbackID
  · rfl

theorem userID (h : Next has g r r') : r'.userID = r.userID := by
  rcases h with h | ⟨-, p, n, rfl⟩
  · exact h.userID
  · rfl

theorem kind (h : Next has g r r') : r'.kind = r.kind := by
  rcases h with h | ⟨-, p, n, rfl⟩
  · exact h.kind
  · rfl

theorem donationID (h : Next has g r r') :
    r'.donationID = r.donationID := by
  rcases h with h | ⟨-, p, n, rfl⟩
  · exact h.donationID
  · rfl

/-- The start, once recorded, stays as it is. -/
theorem startedAt {t : Time} (h : Next has g r r')
    (hr : r.startedAt = some t) : r'.startedAt = some t := by
  rcases h with h | ⟨-, p, n, rfl⟩
  · exact h.startedAt hr
  · exact hr

theorem wellShaped (h : Next has g r r') (hr : r.WellShaped) :
    r'.WellShaped := by
  rcases h with h | ⟨hpending, p, n, rfl⟩
  · exact h.wellShaped hr
  · have hw := hr.waiting (Or.inr hpending)
    have hf := hr.finished
    have hl := hr.lease
    have hs := hr.speech
    have ha := hr.attempts
    constructor <;>
      simp_all [Playback.assign, PlaybackStatus.Waiting,
        PlaybackStatus.Terminal]

theorem references (h : Next has g r r') {a : AssetID}
    (hr : r'.References a) : r.References a ∨ has r.userID a := by
  rcases h with h | ⟨-, p, n, rfl⟩
  · exact h.references hr
  · exact Or.inl hr

end Next

/-- A new playback is well shaped. -/
theorem Playback.New.wellShaped (h : r.New g db db') : r.WellShaped := by
  have hmessage := h.message
  obtain ⟨draw, userID, snapshot, status, rfl⟩ := h.blank
  have hw := h.waiting
  have hover := (PlaybackStatus.terminal_iff status).not.mpr
    fun hn => hn.1 hw
  have hplay : status ≠ .playing := by
    intro he
    have hw' : status.Waiting := hw
    rw [he] at hw'
    simp [PlaybackStatus.Waiting] at hw'
  constructor
  case waiting => intro _; exact ⟨rfl, rfl, rfl, rfl⟩
  case finished =>
    constructor
    · intro hne; exact absurd rfl hne
    · intro ht; exact absurd ht hover
  case presented =>
    intro hp
    refine absurd ?_ hover
    rcases hp with hp | hp
    · exact Or.inl hp
    · exact Or.inr (Or.inr (Or.inr hp))
  case unseen => intro _; rfl
  case lease => intro hne; exact absurd rfl hne
  case speech => intro hs; exact ⟨hmessage hs, rfl⟩
  case attempts => exact ⟨rfl, Nat.zero_le _⟩

-- ========================= following one row

namespace Effect

/-- Where a row comes from. -/
theorem origin (hi : Inv db) (h : Effect g db db') (hr' : r' ∈ db'.playbacks) :
    (∃ r ∈ db.playbacks, Next db.Has g r r') ∨ r'.New g db db' := by
  cases h with
  | move hmove =>
      left
      rw [Table.mem_update] at hr'
      obtain ⟨r, hr, he⟩ := hr'
      refine ⟨r, hr, Or.inl ?_⟩
      split at he
      case isTrue hp => exact he ▸ hmove r hr hp
      case isFalse => exact he ▸ .refl r
  | claim _ hr hpending =>
      left
      rw [Table.mem_update] at hr'
      obtain ⟨s, hs, he⟩ := hr'
      refine ⟨s, hs, ?_⟩
      split at he
      case isTrue hid =>
        have heq := hi.ids s hs _ hr hid
        subst heq
        exact Or.inr ⟨hpending, _, _, he.symm⟩
      case isFalse => exact he ▸ Or.inl (.refl s)
  | insert hqueue hins hstatus hmessage hrefs hincoming =>
      obtain ⟨hid, playbacks, hadd, rfl⟩ := Db.insertPlayback_eq_some hins
      rcases (Table.mem_insert? hadd).mp hr' with hr | rfl
      · exact Or.inl ⟨r', hr, Or.inl (.refl r')⟩
      · right
        refine ⟨hqueue, hstatus, ?_, rfl, hid, hmessage, ?_, fun hkind => ?_,
          ?_, _, _, _, _, rfl⟩
        · show db.sequence < db.sequence + 1 + _
          omega
        · intro hkind s hs hskind he
          obtain ⟨d, hd, -, hfree⟩ := hincoming hkind
          exact hfree ⟨s, hs, hskind, he.trans hd⟩
        · obtain ⟨d, hd, hg, -⟩ := hincoming hkind
          exact ⟨d, hd, hg⟩
        · rintro a (ha | ha | ha)
          · exact hrefs a (Or.inl ha)
          · exact hrefs a (Or.inr ha)
          · cases ha
  | prune hp =>
      exact Or.inl ⟨r', (Table.mem_delete.mp hr').1, Or.inl (.refl r')⟩
  | players => exact Or.inl ⟨r', hr', Or.inl (.refl r')⟩
  | media => exact Or.inl ⟨r', hr', Or.inl (.refl r')⟩
  | donate => exact Or.inl ⟨r', hr', Or.inl (.refl r')⟩
  | rotate => exact Or.inl ⟨r', hr', Or.inl (.refl r')⟩
  | diagnose => exact Or.inl ⟨r', hr', Or.inl (.refl r')⟩

/-- Where a row goes to: it is deleted only from the history. -/
theorem kept (hi : Inv db) (h : Effect g db db')
    (hr : r ∈ db.playbacks) :
    (∃ r' ∈ db'.playbacks, Next db.Has g r r')
      ∨ (g.retire r ∧ r.status.Terminal
        ∧ ∀ d ∈ db'.rendererDiagnostics, ¬ d.About r) := by
  have hstay : Next db.Has g r r := Or.inl (.refl r)
  cases h with
  | @move p _ f _ hmove =>
      left
      by_cases hp : p r
      · refine ⟨f r, ?_, Or.inl (hmove r hr hp)⟩
        rw [Table.mem_update]
        exact ⟨r, hr, if_pos hp⟩
      · refine ⟨r, ?_, hstay⟩
        rw [Table.mem_update]
        exact ⟨r, hr, if_neg hp⟩
  | @claim c player _ hc hpending =>
      left
      by_cases hid : r.playbackID = c.playbackID
      · have heq := hi.ids r hr c hc hid
        subst heq
        refine ⟨r.assign player.playerID player.generation, ?_,
          Or.inr ⟨hpending, _, _, rfl⟩⟩
        rw [Table.mem_update]
        exact ⟨r, hr, if_pos rfl⟩
      · refine ⟨r, ?_, hstay⟩
        rw [Table.mem_update]
        exact ⟨r, hr, if_neg hid⟩
  | insert _ hins =>
      obtain ⟨-, playbacks, hadd, rfl⟩ := Db.insertPlayback_eq_some hins
      exact Or.inl ⟨r, (Table.mem_insert? hadd).mpr (Or.inl hr), hstay⟩
  | @prune p _ hp _ hdiag =>
      by_cases hpr : p r
      · obtain ⟨hg, hterm⟩ := hp r hr hpr
        exact Or.inr ⟨hg, hterm, fun d hd habout =>
          (hdiag d hd).2 r hr habout hpr⟩
      · exact Or.inl ⟨r, Table.mem_delete.mpr ⟨hr, hpr⟩, hstay⟩
  | players => exact Or.inl ⟨r, hr, hstay⟩
  | media => exact Or.inl ⟨r, hr, hstay⟩
  | donate => exact Or.inl ⟨r, hr, hstay⟩
  | rotate => exact Or.inl ⟨r, hr, hstay⟩
  | diagnose => exact Or.inl ⟨r, hr, hstay⟩

/-- Sequence numbers are only drawn upwards. -/
theorem sequence_le (h : Effect g db db') : db.sequence ≤ db'.sequence := by
  cases h with
  | insert _ hins =>
      obtain ⟨-, playbacks, hadd, rfl⟩ := Db.insertPlayback_eq_some hins
      show db.sequence ≤ db.sequence + 1 + _
      omega
  | _ => exact Nat.le_refl _

end Effect

end StreamBrew.Alert
