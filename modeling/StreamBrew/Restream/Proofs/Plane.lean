/-
The sessions of the control plane.

What a statement writes advances the rows it saw (`Advances`): a row of
a session that has not ended gets a later version, or a session is new.
An ended row gets none, so it stays as it is for good.

That a user has one session follows from the keys of the unique index:
a transaction that has inserted a session holds the key of its user, and
sees no other session of the user that has not ended (`Sole`). Nobody
else can add one before it commits.
-/
import StreamBrew.Restream.Plane

namespace StreamBrew.Restream.Plane

open Relational
open Alert (UserID Time jsDate)

variable {effect : Written} {locks : List Lock}

-- ================================== versions

/-- What a later version of the row of a session may be. -/
structure RestreamSession.Becomes (s s' : RestreamSession) : Prop where
  sessionID : s'.sessionID = s.sessionID
  userID : s'.userID = s.userID
  nodeID : s'.nodeID = s.nodeID
  publisherID : s'.publisherID = s.publisherID
  startedAt : s'.startedAt = s.startedAt
  /-- `live_at` is set once -/
  liveAt : ∀ t, s.liveAt = some t → s'.liveAt = some t
  /-- an ended session stays as it is -/
  ended : s.active = false → s' = s

theorem RestreamSession.Becomes.refl (s : RestreamSession) :
    s.Becomes s :=
  ⟨rfl, rfl, rfl, rfl, rfl, fun _ h => h, fun _ => rfl⟩

theorem RestreamSession.Becomes.trans {s t u : RestreamSession}
    (h : s.Becomes t) (h' : t.Becomes u) : s.Becomes u where
  sessionID := h'.sessionID.trans h.sessionID
  userID := h'.userID.trans h.userID
  nodeID := h'.nodeID.trans h.nodeID
  publisherID := h'.publisherID.trans h.publisherID
  startedAt := h'.startedAt.trans h.startedAt
  liveAt t ht := h'.liveAt t (h.liveAt t ht)
  ended hs := by
    obtain rfl := h.ended hs
    exact h'.ended hs

/-- What a later version of the row of a session's destination may
be. -/
structure SessionDestination.Becomes (d d' : SessionDestination) :
    Prop where
  key : d'.key = d.key
  userID : d'.userID = d.userID
  outboundBytes : d.outboundBytes ≤ d'.outboundBytes

theorem SessionDestination.Becomes.refl (d : SessionDestination) :
    d.Becomes d := ⟨rfl, rfl, Nat.le_refl _⟩

theorem SessionDestination.Becomes.trans {d e f : SessionDestination}
    (h : d.Becomes e) (h' : e.Becomes f) : d.Becomes f :=
  ⟨h'.key.trans h.key, h'.userID.trans h.userID,
    Nat.le_trans h.outboundBytes h'.outboundBytes⟩

/-- Every row is still there, in a later version. -/
structure Db.Becomes (db db' : Db) : Prop where
  sessions : ∀ s ∈ db.sessions, ∃ s' ∈ db'.sessions, s.Becomes s'
  destinations : ∀ d ∈ db.sessionDestinations,
    ∃ d' ∈ db'.sessionDestinations, d.Becomes d'

theorem Db.Becomes.refl (db : Db) : db.Becomes db :=
  ⟨fun s hs => ⟨s, hs, .refl s⟩, fun d hd => ⟨d, hd, .refl d⟩⟩

theorem Db.Becomes.trans {a b c : Db} (h : a.Becomes b)
    (h' : b.Becomes c) : a.Becomes c where
  sessions s hs := by
    obtain ⟨t, ht, hst⟩ := h.sessions s hs
    obtain ⟨u, hu, htu⟩ := h'.sessions t ht
    exact ⟨u, hu, hst.trans htu⟩
  destinations d hd := by
    obtain ⟨e, he, hde⟩ := h.destinations d hd
    obtain ⟨f, hf, hef⟩ := h'.destinations e he
    exact ⟨f, hf, hde.trans hef⟩

-- ==================================== writes

/-- No row of the table has the key. -/
def Fresh {α κ : Type} {key : α → κ} (t : Table key) (a : α) : Prop :=
  ∀ b ∈ t, key b ≠ key a

/-- What a statement writes, or the statements of a transaction. -/
structure Advances (db w : Db) : Prop where
  checked : ∀ s ∈ w.sessions, s.Check
  sessions : ∀ s' ∈ w.sessions,
    (∃ s ∈ db.sessions, s.active = true ∧ s.Becomes s')
      ∨ Fresh db.sessions s'
  destinations : ∀ d' ∈ w.sessionDestinations,
    (∃ d ∈ db.sessionDestinations, d.Becomes d')
      ∨ Fresh db.sessionDestinations d'

theorem advances_empty (db : Db) : Advances db .empty :=
  ⟨fun _ h => absurd h Table.not_mem_empty,
    fun _ h => absurd h Table.not_mem_empty,
    fun _ h => absurd h Table.not_mem_empty⟩

section Tables

variable {α κ : Type} [DecidableEq κ] {key : α → κ} {t w u : Table key}
  {a : α}

/-- A key that is free after an overlay was free before, and in what was
written. -/
theorem fresh_overlay (h : Fresh (t.overlay w) a) :
    Fresh t a ∧ Fresh w a := by
  constructor
  · intro b hb
    obtain ⟨c, hc, hk, -⟩ := Table.exists_overlay (w := w) hb
    exact hk ▸ h c hc
  · exact fun b hb => h b (Table.mem_overlay.mpr (Or.inl hb))

theorem Fresh.overlay (h : Fresh t a) (h' : Fresh w a) :
    Fresh (t.overlay w) a := by
  intro b hb
  rcases Table.mem_overlay.mp hb with hb | ⟨hb, -⟩
  · exact h' b hb
  · exact h b hb

/-- A row that others have no version of is what it was. -/
theorem mem_overlay_of_apart (ha : a ∈ t) (hapart : Fresh w a) :
    a ∈ t.overlay w :=
  Table.mem_overlay.mpr (Or.inr ⟨ha, hapart⟩)

end Tables

variable {db w u : Db}

/-- Rows that advance a database make it become its overlay. -/
theorem Advances.becomes (h : Advances db w) :
    db.Becomes (db.overlay w) where
  sessions s hs := by
    obtain ⟨s', hs', hid, rfl | hw⟩ := Table.exists_overlay
      (w := w.sessions) hs
    · exact ⟨s', hs', .refl s'⟩
    · rcases h.sessions s' hw with ⟨t, ht, -, hbecomes⟩ | hfresh
      · obtain rfl := Table.eq_of_key hs ht
          (hid.symm.trans hbecomes.sessionID)
        exact ⟨s', hs', hbecomes⟩
      · exact absurd hid.symm (hfresh s hs)
  destinations d hd := by
    obtain ⟨d', hd', hk, rfl | hw⟩ := Table.exists_overlay
      (w := w.sessionDestinations) hd
    · exact ⟨d', hd', .refl d'⟩
    · rcases h.destinations d' hw with ⟨e, he, hbecomes⟩ | hfresh
      · obtain rfl := Table.eq_of_key hd he (hk.symm.trans hbecomes.key)
        exact ⟨d', hd', hbecomes⟩
      · exact absurd hk.symm (hfresh d hd)

/-- One statement after another. -/
theorem Advances.extend (h : Advances db w)
    (h' : Advances (db.overlay w) u) : Advances db (w.overlay u) where
  checked s hs := by
    rcases Table.mem_overlay.mp hs with hs | ⟨hs, -⟩
    · exact h'.checked s hs
    · exact h.checked s hs
  sessions s' hs' := by
    rcases Table.mem_overlay.mp hs' with hs' | ⟨hs', -⟩
    · rcases h'.sessions s' hs' with ⟨s, hs, hactive, hbecomes⟩ | hfresh
      · rcases Table.mem_overlay.mp hs with hs | ⟨hs, -⟩
        · rcases h.sessions s hs with ⟨r, hr, hr', hrs⟩ | hfresh
          · exact Or.inl ⟨r, hr, hr', hrs.trans hbecomes⟩
          · refine Or.inr fun r hr => ?_
            rw [hbecomes.sessionID]
            exact hfresh r hr
        · exact Or.inl ⟨s, hs, hactive, hbecomes⟩
      · exact Or.inr (fresh_overlay hfresh).1
    · exact h.sessions s' hs'
  destinations d' hd' := by
    rcases Table.mem_overlay.mp hd' with hd' | ⟨hd', -⟩
    · rcases h'.destinations d' hd' with ⟨d, hd, hbecomes⟩ | hfresh
      · rcases Table.mem_overlay.mp hd with hd | ⟨hd, -⟩
        · rcases h.destinations d hd with ⟨e, he, hed⟩ | hfresh
          · exact Or.inl ⟨e, he, hed.trans hbecomes⟩
          · refine Or.inr fun e he => ?_
            rw [hbecomes.key]
            exact hfresh e he
        · exact Or.inl ⟨d, hd, hbecomes⟩
      · exact Or.inr (fresh_overlay hfresh).1
    · exact h.destinations d' hd'

/-- The writes of others, to other rows. -/
theorem Advances.stable (h : Advances db w) (hapart : w.Apart u) :
    Advances (db.overlay u) w where
  checked := h.checked
  sessions s' hs' := by
    have hother : Fresh u.sessions s' :=
      fun t ht => (hapart.2.2.1.ne hs' ht).symm
    rcases h.sessions s' hs' with ⟨s, hs, hactive, hbecomes⟩ | hfresh
    · refine Or.inl ⟨s, mem_overlay_of_apart hs fun t ht => ?_, hactive,
        hbecomes⟩
      rw [← hbecomes.sessionID]
      exact hother t ht
    · exact Or.inr (hfresh.overlay hother)
  destinations d' hd' := by
    have hother : Fresh u.sessionDestinations d' :=
      fun t ht => (hapart.2.2.2.ne hd' ht).symm
    rcases h.destinations d' hd' with ⟨d, hd, hbecomes⟩ | hfresh
    · refine Or.inl ⟨d, mem_overlay_of_apart hd fun t ht => ?_, hbecomes⟩
      rw [← hbecomes.key]
      exact hother t ht
    · exact Or.inr (hfresh.overlay hother)

-- ================================ one a user

/-- No user has two active sessions. -/
def Db.OneActive (db : Db) : Prop :=
  ∀ s ∈ db.sessions, ∀ t ∈ db.sessions, s.active = true →
    t.active = true → s.userID = t.userID → s.sessionID = t.sessionID

/-- A new session that has not ended is the only one of its user in
sight, and its writer holds the key of the user. -/
def Sole (db w : Db) (locks : List Lock) : Prop :=
  ∀ s ∈ w.sessions, s.active = true → Fresh db.sessions s →
    { target := .activeUser s.userID } ∈ locks
      ∧ ∀ t ∈ (db.overlay w).sessions, t.active = true →
        t.userID = s.userID → t.sessionID = s.sessionID

/-- No session is new. -/
theorem sole_of_known
    (h : ∀ s ∈ w.sessions, ∃ t ∈ db.sessions, t.sessionID = s.sessionID) :
    Sole db w locks := by
  intro s hs _ hfresh
  obtain ⟨t, ht, hid⟩ := h s hs
  exact absurd hid (hfresh t ht)

/-- Rows that advance a database and start a session only under its lock keep
one active session. -/
theorem Db.OneActive.overlay (hdb : db.OneActive)
    (hw : Advances db w) (hsole : Sole db w locks) :
    (db.overlay w).OneActive := by
  -- a row that is not new was there before, and had not ended
  have hcases : ∀ s ∈ (db.overlay w).sessions, s.active = true →
      (∃ r ∈ db.sessions, r.active = true ∧ r.Becomes s)
        ∨ (s ∈ w.sessions ∧ Fresh db.sessions s) := by
    intro s hs hactive
    rcases Table.mem_overlay.mp hs with hs | ⟨hs, -⟩
    · rcases hw.sessions s hs with hknown | hfresh
      · exact Or.inl hknown
      · exact Or.inr ⟨hs, hfresh⟩
    · exact Or.inl ⟨s, hs, hactive, .refl s⟩
  intro s hs t ht hactive hactive' huser
  rcases hcases s hs hactive with ⟨r, hr, hra, hrs⟩ | ⟨hsw, hfresh⟩
  · rcases hcases t ht hactive' with ⟨q, hq, hqa, hqt⟩ | ⟨htw, hfresh⟩
    · have hids := hdb r hr q hq hra hqa
        (hrs.userID.symm.trans (huser.trans hqt.userID))
      rw [hrs.sessionID, hids, hqt.sessionID]
    · exact (hsole t htw hactive' hfresh).2 s hs hactive huser
  · exact ((hsole s hsw hactive hfresh).2 t ht hactive' huser.symm).symm

/-- One more statement. -/
theorem Sole.extend {locks' : List Lock}
    (hsole : Sole db w locks) (hu : Advances (db.overlay w) u)
    (hsole' : Sole (db.overlay w) u locks') :
    Sole db (w.overlay u) (locks ++ locks') := by
  have hview : db.overlay (w.overlay u) = (db.overlay w).overlay u :=
    (Sessions.Versioned.overlay_assoc db w u).symm
  intro s hs hactive hfresh
  -- the session is one that this statement inserts, or was inserted
  have hcases : (s ∈ u.sessions ∧ Fresh (db.overlay w).sessions s)
      ∨ ∃ r ∈ w.sessions, r.active = true ∧ r.Becomes s := by
    rcases Table.mem_overlay.mp hs with hs | ⟨hs, -⟩
    · rcases hu.sessions s hs with ⟨r, hr, hra, hrs⟩ | hnew
      · rcases Table.mem_overlay.mp hr with hr | ⟨hr, -⟩
        · exact Or.inr ⟨r, hr, hra, hrs⟩
        · exact absurd hrs.sessionID.symm (hfresh r hr)
      · exact Or.inl ⟨hs, hnew⟩
    · exact Or.inr ⟨s, hs, hactive, .refl s⟩
  rw [hview]
  rcases hcases with ⟨hsu, hnew⟩ | ⟨r, hr, hra, hrs⟩
  · obtain ⟨hlock, honly⟩ := hsole' s hsu hactive hnew
    exact ⟨List.mem_append_right _ hlock, honly⟩
  · have hrfresh : Fresh db.sessions r := by
      intro t ht
      rw [← hrs.sessionID]
      exact hfresh t ht
    obtain ⟨hlock, honly⟩ := hsole r hr hra hrfresh
    refine ⟨List.mem_append_left _ (hrs.userID ▸ hlock), ?_⟩
    intro t ht hta huser
    have hold : ∀ q ∈ (db.overlay w).sessions, q.active = true →
        q.userID = s.userID → q.sessionID = s.sessionID := by
      intro q hq hqa hquser
      rw [hrs.sessionID]
      exact honly q hq hqa (hquser.trans hrs.userID)
    rcases Table.mem_overlay.mp ht with htu | ⟨ht, -⟩
    · rcases hu.sessions t htu with ⟨q, hq, hqa, hqt⟩ | hnew
      · rw [hqt.sessionID]
        exact hold q hq hqa (hqt.userID.symm.trans huser)
      · have hs' : s ∈ ((db.overlay w).overlay u).sessions := by
          rw [← hview]
          exact Table.mem_overlay.mpr (Or.inl hs)
        exact ((hsole' t htu hta hnew).2 s hs' hactive huser.symm).symm
    · exact hold t ht hta huser

/-- Another transaction that commits. -/
theorem Sole.stable {locks' : List Lock} (hsole : Sole db w locks)
    (hu : Advances db u) (hsole' : Sole db u locks') (hapart : w.Apart u)
    (hlocks : ∀ held ∈ locks, ∀ lock ∈ locks', held.compatible lock) :
    Sole (db.overlay u) w locks := by
  intro s hs hactive hfresh
  obtain ⟨hlock, honly⟩ := hsole s hs hactive (fresh_overlay hfresh).1
  refine ⟨hlock, fun t ht hta huser => ?_⟩
  have hbeside : ∀ q ∈ db.sessions, Fresh w.sessions q → q.active = true →
      q.userID = s.userID → q.sessionID = s.sessionID := fun q hq hfree =>
    honly q (mem_overlay_of_apart hq hfree)
  rcases Table.mem_overlay.mp ht with htw | ⟨ht, hnotw⟩
  · exact honly t (Table.mem_overlay.mpr (Or.inl htw)) hta huser
  · rcases Table.mem_overlay.mp ht with htu | ⟨ht, -⟩
    · rcases hu.sessions t htu with ⟨q, hq, hqa, hqt⟩ | hnew
      · rw [hqt.sessionID]
        refine hbeside q hq (fun b hb => ?_) hqa
          (hqt.userID.symm.trans huser)
        rw [← hqt.sessionID]
        exact hapart.2.2.1.ne hb htu
      · -- both hold the key of the user
        have hboth := hlocks _ hlock _
          (huser ▸ (hsole' t htu hta hnew).1)
        simp [Lock.compatible] at hboth
    · exact hbeside t ht hnotw hta huser

-- ================================ statements

/-- What a statement writes, and the locks it takes. -/
structure Sound (db : Db) (effect : Written) : Prop where
  advances : Advances db effect.written
  sole : Sole db effect.written effect.locks

theorem RestreamSession.finish_becomes {s : RestreamSession}
    (hs : s.active = true) (now : Time) : s.Becomes (s.finish now) where
  sessionID := rfl
  userID := rfl
  nodeID := rfl
  publisherID := rfl
  startedAt := rfl
  liveAt _ h := h
  ended h := by
    rw [hs] at h
    cases h

theorem RestreamSession.beat_becomes {s : RestreamSession}
    (hs : s.active = true) (now : Time) : s.Becomes (s.beat now) where
  sessionID := rfl
  userID := rfl
  nodeID := rfl
  publisherID := rfl
  startedAt := rfl
  liveAt t h := by
    show some (s.liveAt.getD (jsDate now)) = some t
    rw [h, Option.getD_some]
  ended h := by
    rw [hs] at h
    cases h

section Update

variable {p : RestreamSession → Prop} [DecidablePred p]
  {f : RestreamSession → RestreamSession}
  {hf : ∀ s, (f s).sessionID = s.sessionID}
  {rows : Table RestreamSession.sessionID}

theorem of_mem_updateSessions (h : db.updateSessions p f hf = .ok rows)
    {s' : RestreamSession} (hs' : s' ∈ rows) :
    ∃ s ∈ db.sessions, p s ∧ s' = f s ∧ s'.Check := by
  obtain ⟨s, hs, hp, hstored⟩ := Table.of_mem_modify? h hs'
  obtain ⟨rfl, hcheck⟩ := RestreamSession.stored_ok hstored
  exact ⟨s, hs, hp, rfl, hcheck⟩

theorem mem_updateSessions (h : db.updateSessions p f hf = .ok rows)
    {s : RestreamSession} (hs : s ∈ db.sessions) (hp : p s) :
    f s ∈ rows := by
  obtain ⟨s', hs', hstored⟩ := Table.mem_modify? h hs hp
  obtain ⟨rfl, -⟩ := RestreamSession.stored_ok hstored
  exact hs'

/-- An update of active sessions is sound. -/
theorem updateSessions_sound (h : db.updateSessions p f hf = .ok rows)
    (hp : ∀ s, p s → s.active = true)
    (hbecomes : ∀ s : RestreamSession, s.active = true → s.Becomes (f s))
    (locks : List Lock) :
    Sound db { written := { Db.empty with sessions := rows }, locks } where
  advances :=
    { checked := fun s' hs' => by
        obtain ⟨-, -, -, -, hcheck⟩ := of_mem_updateSessions h hs'
        exact hcheck
      sessions := fun s' hs' => by
        obtain ⟨s, hs, hps, rfl, -⟩ := of_mem_updateSessions h hs'
        exact Or.inl ⟨s, hs, hp s hps, hbecomes s (hp s hps)⟩
      destinations := fun _ hd => absurd hd Table.not_mem_empty }
  sole := sole_of_known fun s' hs' => by
    obtain ⟨s, hs, -, rfl, -⟩ := of_mem_updateSessions h hs'
    exact ⟨s, hs, (hf s).symm⟩

end Update

/-- No session is written, and no row of a session's destination is
new. -/
theorem sound_of_no_sessions (hsessions : effect.written.sessions = .empty)
    (hdestinations : ∀ d' ∈ effect.written.sessionDestinations,
      (∃ d ∈ db.sessionDestinations, d.Becomes d')
        ∨ Fresh db.sessionDestinations d') : Sound db effect where
  advances :=
    { checked := fun s hs => by
        rw [hsessions] at hs
        exact absurd hs Table.not_mem_empty
      sessions := fun s hs => by
        rw [hsessions] at hs
        exact absurd hs Table.not_mem_empty
      destinations := hdestinations }
  sole := sole_of_known fun s hs => by
    rw [hsessions] at hs
    exact absurd hs Table.not_mem_empty

/-- No row of a session is written. -/
theorem sound_of_elsewhere (hsessions : effect.written.sessions = .empty)
    (hdestinations : effect.written.sessionDestinations = .empty) :
    Sound db effect :=
  sound_of_no_sessions hsessions fun d hd => by
    rw [hdestinations] at hd
    exact absurd hd Table.not_mem_empty

/-- An insert of a session that goes through writes that row and holds its
locks. -/
theorem insertSession_ok {s : RestreamSession}
    (h : db.insertSession s = .ok effect) :
    effect = { written := { Db.empty with sessions := .row _ s }
               locks := [{ target := .activeUser s.userID },
                { target := .activePublisher s.nodeID s.publisherID },
                { target := .user s.userID, shared := true }] }
      ∧ s.Check ∧ Fresh db.sessions s
      ∧ ∀ t ∈ db.sessions, t.active = true → t.userID ≠ s.userID := by
  unfold Db.insertSession at h
  split at h
  case isTrue => cases h
  case isFalse hfresh =>
    split at h
    case isTrue => cases h
    case isFalse honly =>
      cases hstored : s.stored with
      | error e =>
          rw [hstored] at h
          cases h
      | ok s' =>
          rw [hstored] at h
          obtain ⟨rfl, hcheck⟩ := RestreamSession.stored_ok hstored
          cases h
          exact ⟨rfl, hcheck, fun t ht hid => hfresh ⟨t, ht, hid⟩,
            fun t ht hactive huser =>
              honly ⟨t, ht, hactive, Or.inl huser⟩⟩

theorem insertSession_sound {s : RestreamSession}
    (h : db.insertSession s = .ok effect) : Sound db effect := by
  obtain ⟨rfl, hcheck, hfresh, honly⟩ := insertSession_ok h
  constructor
  · refine ⟨fun t ht => ?_, fun t ht => ?_,
      fun d hd => absurd hd Table.not_mem_empty⟩
    · rw [Table.mem_row.mp ht]
      exact hcheck
    · rw [Table.mem_row.mp ht]
      exact Or.inr hfresh
  · intro t ht _ _
    rw [Table.mem_row.mp ht]
    refine ⟨List.mem_cons_self, fun q hq hactive huser => ?_⟩
    rcases Table.mem_overlay.mp hq with hq | ⟨hq, -⟩
    · rw [Table.mem_row.mp hq]
    · exact absurd huser (honly q hq hactive)

theorem insertSessionDestination_sound {d : SessionDestination}
    (h : db.insertSessionDestination d = .ok effect) :
    Sound db effect ∧ effect.written.sessions = .empty := by
  unfold Db.insertSessionDestination at h
  split at h
  case isTrue => cases h
  case isFalse hfresh =>
    split at h
    case isTrue => cases h
    case isFalse =>
      cases h
      refine ⟨sound_of_no_sessions rfl fun d' hd' => ?_, rfl⟩
      rw [Table.mem_row.mp hd']
      exact Or.inr fun e he hk => hfresh ⟨e, he, hk⟩

/-- The rows of some destinations, changed. -/
theorem updateDestinations_known {p : SessionDestination → Prop}
    [DecidablePred p] {f : SessionDestination → SessionDestination}
    (hf : ∀ d, (f d).key = d.key)
    (hbecomes : ∀ d : SessionDestination, d.Becomes (f d))
    {d' : SessionDestination}
    (hd' : d' ∈ (db.sessionDestinations.select p).update
      (fun _ => True) f hf) :
    ∃ d ∈ db.sessionDestinations, p d ∧ d.Becomes d' := by
  obtain ⟨d, hd, rfl⟩ := Table.mem_update.mp hd'
  obtain ⟨hd, hp⟩ := Table.mem_select.mp hd
  rw [if_pos trivial]
  exact ⟨d, hd, hp, hbecomes d⟩

-- ===================================== calls

/-- Moving destinations writes no session. -/
theorem compact_ok {position : Nat} {remaining : List SavedDestination}
    {moved : Db} (h : db.compact position remaining = .ok moved) :
    moved.sessions = .empty ∧ moved.sessionDestinations = .empty := by
  induction remaining generalizing db position moved with
  | nil =>
      cases h
      exact ⟨rfl, rfl⟩
  | cons d remaining ih =>
      unfold Db.compact at h
      split at h
      case isTrue => exact ih h
      case isFalse =>
        simp only at h
        split at h
        case isTrue => cases h
        case isFalse =>
          obtain ⟨rest, hrest, rfl⟩ := map_eq_ok h
          obtain ⟨hsessions, hdestinations⟩ := ih hrest
          constructor
          · show Table.overlay .empty rest.sessions = .empty
            rw [hsessions, Table.overlay_empty]
          · show Table.overlay .empty rest.sessionDestinations = .empty
            rw [hdestinations, Table.overlay_empty]

/-- Deleting a destination is sound. -/
theorem deleteDestination_sound {userID : UserID}
    {destinationID : DestinationID} {r : Written × Unit}
    (h : deleteDestination userID destinationID db = .ok r) :
    Sound db r.1 := by
  unfold deleteDestination at h
  split at h
  case h_1 => cases h
  case h_2 d hd =>
    simp only at h
    split at h
    case h_1 => cases h
    case h_2 moved hmoved =>
      cases h
      obtain ⟨hsessions, hdestinations⟩ := compact_ok hmoved
      have hnone : ((db.deleteDestination d).overlay moved).sessions
          = .empty := by
        show Table.overlay .empty moved.sessions = .empty
        rw [hsessions, Table.overlay_empty]
      refine sound_of_no_sessions hnone fun d' hd' => Or.inl ?_
      have hdeleted : d' ∈ (db.deleteDestination d).sessionDestinations := by
        rw [← Table.overlay_empty (db.deleteDestination d).sessionDestinations,
          ← hdestinations]
        exact hd'
      unfold Db.deleteDestination at hdeleted
      obtain ⟨e, he, -, hbecomes⟩ := updateDestinations_known
        (f := fun e => { e with deleted := true }) (fun _ => rfl)
        (fun e => ⟨rfl, rfl, Nat.le_refl _⟩) hdeleted
      exact ⟨e, he, hbecomes⟩

theorem endSession_ok {nodeID : String} {sessionID : SessionID} {now : Time}
    {r : Written × Bool} (h : endSession nodeID sessionID now db = .ok r) :
    ∃ rows, db.updateSessions (RestreamSession.Is nodeID sessionID)
        (RestreamSession.finish now) (fun _ => rfl) = .ok rows
      ∧ r = ({ written := { Db.empty with sessions := rows } },
        !rows.rows.isEmpty) := by
  obtain ⟨rows, hrows, rfl⟩ := map_eq_ok h
  exact ⟨rows, hrows, rfl⟩

variable {hashIngestKey : String → String}

/-- Every call of the plane is sound. -/
theorem call_sound {call : Call}
    (h : call.perform hashIngestKey db = .ok effect) :
    Sound db effect := by
  cases call with
  | rotateIngestKey userID key =>
      obtain ⟨r, hr, rfl⟩ := map_eq_ok h
      unfold rotateIngestKey at hr
      simp only at hr
      split at hr
      case isTrue => cases hr
      case isFalse =>
        cases hr
        exact sound_of_elsewhere rfl rfl
  | createDestination userID serverURL streamKey destinationID =>
      obtain ⟨r, hr, rfl⟩ := map_eq_ok h
      unfold createDestination at hr
      simp only at hr
      split at hr
      case isTrue => cases hr
      case isFalse =>
        split at hr
        case isTrue => cases hr
        case isFalse =>
          split at hr
          case isTrue => cases hr
          case isFalse =>
            cases hr
            exact sound_of_elsewhere rfl rfl
  | updateDestination userID destinationID serverURL streamKey =>
      obtain ⟨r, hr, rfl⟩ := map_eq_ok h
      unfold updateDestination at hr
      split at hr
      case h_1 => cases hr
      case h_2 =>
        cases hr
        exact sound_of_elsewhere rfl rfl
  | setDestinationEnabled userID destinationID enabled =>
      obtain ⟨r, hr, rfl⟩ := map_eq_ok h
      unfold setDestinationEnabled at hr
      split at hr
      case h_1 => cases hr
      case h_2 =>
        cases hr
        exact sound_of_elsewhere rfl rfl
  | deleteDestination userID destinationID =>
      obtain ⟨r, hr, rfl⟩ := map_eq_ok h
      exact deleteDestination_sound hr
  | endSession nodeID sessionID now =>
      obtain ⟨r, hr, rfl⟩ := map_eq_ok h
      obtain ⟨rows, hrows, rfl⟩ := endSession_ok hr
      exact updateSessions_sound hrows (fun s hs => hs.2.2)
        (fun s hs => RestreamSession.finish_becomes hs now) []

-- ============================== transactions

/-- A session that the transaction has inserted. -/
def Inserted (userID : UserID) (sessionID : SessionID) (db w : Db) : Prop :=
  ∃ s ∈ w.sessions, s.sessionID = sessionID ∧ s.userID = userID
    ∧ s.status = .connecting ∧ Fresh db.sessions s

/-- The rows of one session only, which was there and had not ended. -/
structure Touches (nodeID : String) (sessionID : SessionID) (db w : Db) :
    Prop where
  found : ∃ s ∈ db.sessions, s.Is nodeID sessionID
  wrote : ∃ s ∈ w.sessions, s.sessionID = sessionID
  sessions : ∀ s ∈ w.sessions, s.sessionID = sessionID
  destinations : ∀ d ∈ w.sessionDestinations, d.sessionID = sessionID
  ingests : w.ingests = .empty
  saved : w.destinations = .empty

/-- What a transaction has written at its stage. -/
def Txn.Wrote (db w : Db) : Txn → Prop
  | .authorizePublisher _ (.link userID sessionID _ _ _) =>
      Inserted userID sessionID db w
  | .authorizePublisher _ (.done (some (userID, a))) =>
      Inserted userID a.sessionID db w
  | .authorizePublisher _ (.session _ _) => True
  | .authorizePublisher _ _ => w = .empty
  | .heartbeat _ .session | .heartbeat _ (.done false) => w = .empty
  | .heartbeat c (.destination _ _) | .heartbeat c (.done true) =>
      Touches c.nodeID c.sessionID db w

theorem wrote_linking {c : AuthorizePublisher} {userID : UserID}
    {sessionID : SessionID} {destinations : List SavedDestination}
    (h : Inserted userID sessionID db w) (rest : List SavedDestination) :
    (Txn.authorizePublisher c
      (linking userID sessionID destinations rest)).Wrote db w := by
  cases rest with
  | nil => exact h
  | cons next rest => exact h

theorem wrote_reporting {c : Heartbeat}
    (h : Touches c.nodeID c.sessionID db w) (rest : List DestinationState) :
    (Txn.heartbeat c (reporting rest)).Wrote db w := by
  cases rest with
  | nil => exact h
  | cons next rest => exact h

theorem Inserted.stable {userID : UserID} {sessionID : SessionID}
    (h : Inserted userID sessionID db w) (hapart : w.Apart u) :
    Inserted userID sessionID (db.overlay u) w := by
  obtain ⟨s, hs, hid, huser, hstatus, hfresh⟩ := h
  exact ⟨s, hs, hid, huser, hstatus, hfresh.overlay fun t ht =>
    (hapart.2.2.1.ne hs ht).symm⟩

theorem Touches.stable {nodeID : String} {sessionID : SessionID}
    (h : Touches nodeID sessionID db w) (hapart : w.Apart u) :
    Touches nodeID sessionID (db.overlay u) w where
  found := by
    obtain ⟨s, hs, his⟩ := h.found
    obtain ⟨s', hs', hid⟩ := h.wrote
    refine ⟨s, mem_overlay_of_apart hs fun t ht => ?_, his⟩
    rw [his.1, ← hid]
    exact (hapart.2.2.1.ne hs' ht).symm
  wrote := h.wrote
  sessions := h.sessions
  destinations := h.destinations
  ingests := h.ingests
  saved := h.saved

/-- What a transaction has written survives the commits of others. -/
theorem Txn.Wrote.stable {txn : Txn} (h : txn.Wrote db w)
    (hapart : w.Apart u) : txn.Wrote (db.overlay u) w := by
  match txn, h with
  | .authorizePublisher _ (.link _ _ _ _ _), h =>
      exact Inserted.stable h hapart
  | .authorizePublisher _ (.done (some (_, _))), h =>
      exact Inserted.stable h hapart
  | .authorizePublisher _ (.session _ _), _ => trivial
  | .authorizePublisher _ .ingest, h => exact h
  | .authorizePublisher _ (.destinations _), h => exact h
  | .authorizePublisher _ (.previous _ _), h => exact h
  | .authorizePublisher _ (.done none), h => exact h
  | .heartbeat _ .session, h => exact h
  | .heartbeat _ (.done false), h => exact h
  | .heartbeat _ (.destination _ _), h => exact Touches.stable h hapart
  | .heartbeat _ (.done true), h => exact Touches.stable h hapart

/-- A statement of authorizePublisher. -/
theorem authorizePublisher_statement {c : AuthorizePublisher}
    {stage : AuthorizeStage} {f} {draw : SessionID}
    {r : Written × AuthorizeStage}
    (hf : c.statement hashIngestKey stage = some f)
    (hr : f (db.overlay w) draw = .ok r)
    (hwrote : (Txn.authorizePublisher c stage).Wrote db w) :
    Sound (db.overlay w) r.1
      ∧ (Txn.authorizePublisher c r.2).Wrote db
        (w.overlay r.1.written) := by
  have hread : ∀ stage' : AuthorizeStage, ∀ locks : List Lock,
      (w = .empty → (Txn.authorizePublisher c stage').Wrote db .empty) →
      w = .empty →
      Sound (db.overlay w) { written := .empty, locks }
        ∧ (Txn.authorizePublisher c stage').Wrote db (w.overlay .empty) := by
    intro stage' locks hstage hw
    refine ⟨sound_of_elsewhere rfl rfl, ?_⟩
    have hnone : w.overlay .empty = .empty := by
      rw [hw]
      exact Sessions.Versioned.overlay_empty _
    rw [hnone]
    exact hstage hw
  unfold AuthorizePublisher.statement at hf
  cases stage with
  | ingest =>
      cases hf
      simp only at hr
      split at hr
      case h_1 =>
        cases hr
        exact hread _ _ (fun _ => rfl) hwrote
      case h_2 =>
        cases hr
        exact hread _ _ (fun _ => rfl) hwrote
  | destinations userID =>
      cases hf
      simp only at hr
      split at hr
      case h_1 =>
        cases hr
        exact hread _ _ (fun _ => rfl) hwrote
      case h_2 =>
        cases hr
        exact hread _ _ (fun _ => rfl) hwrote
  | previous userID destinations =>
      cases hf
      obtain ⟨rows, hrows, rfl⟩ := map_eq_ok hr
      exact ⟨updateSessions_sound hrows (fun s hs => hs.2)
        (fun s hs => RestreamSession.finish_becomes hs c.now) [], trivial⟩
  | session userID destinations =>
      cases hf
      obtain ⟨effect, heffect, rfl⟩ := map_eq_ok hr
      refine ⟨insertSession_sound heffect, wrote_linking ?_ _⟩
      obtain ⟨rfl, -, hfresh, -⟩ := insertSession_ok heffect
      exact ⟨_, Table.mem_overlay.mpr (Or.inl (Table.mem_row.mpr rfl)), rfl,
        rfl, rfl, (fresh_overlay hfresh).1⟩
  | link userID sessionID next rest destinations =>
      cases hf
      obtain ⟨effect, heffect, rfl⟩ := map_eq_ok hr
      obtain ⟨hsound, hnone⟩ := insertSessionDestination_sound heffect
      refine ⟨hsound, wrote_linking ?_ _⟩
      obtain ⟨s, hs, hrest⟩ := hwrote
      refine ⟨s, ?_, hrest⟩
      show s ∈ w.sessions.overlay effect.written.sessions
      rw [hnone, Table.overlay_empty]
      exact hs
  | done granted => cases hf

/-- The update of a heartbeat touches its session alone. -/
theorem touches_beat {nodeID : String} {sessionID : SessionID} {now : Time}
    {rows : Table RestreamSession.sessionID}
    (h : db.updateSessions (RestreamSession.Is nodeID sessionID)
      (RestreamSession.beat now) (fun _ => rfl) = .ok rows)
    {s' : RestreamSession} (hs' : s' ∈ rows) :
    Touches nodeID sessionID db { Db.empty with sessions := rows } where
  found := by
    obtain ⟨s, hs, his, -, -⟩ := of_mem_updateSessions h hs'
    exact ⟨s, hs, his⟩
  wrote := by
    obtain ⟨s, -, his, rfl, -⟩ := of_mem_updateSessions h hs'
    exact ⟨_, hs', his.1⟩
  sessions t ht := by
    obtain ⟨s, -, his, rfl, -⟩ := of_mem_updateSessions h ht
    exact his.1
  destinations _ hd := absurd hd Table.not_mem_empty
  ingests := rfl
  saved := rfl

/-- The rows of the session's destinations, after its own. -/
theorem Touches.report {nodeID : String} {sessionID : SessionID}
    {rows : Table SessionDestination.key}
    (h : Touches nodeID sessionID db w)
    (hrows : ∀ d ∈ rows, d.sessionID = sessionID) :
    Touches nodeID sessionID db
      (w.overlay { Db.empty with sessionDestinations := rows }) := by
  have hsessions : (w.overlay
      { Db.empty with sessionDestinations := rows }).sessions
        = w.sessions := Table.overlay_empty _
  refine ⟨h.found, ?_, ?_, fun d hd => ?_, ?_, ?_⟩
  · rw [hsessions]
    exact h.wrote
  · rw [hsessions]
    exact h.sessions
  · rcases Table.mem_overlay.mp hd with hd | ⟨hd, -⟩
    · exact hrows d hd
    · exact h.destinations d hd
  · show w.ingests.overlay .empty = .empty
    rw [h.ingests, Table.overlay_empty]
  · show w.destinations.overlay .empty = .empty
    rw [h.saved, Table.overlay_empty]

/-- A statement of heartbeat. -/
theorem heartbeat_statement {c : Heartbeat} {stage : HeartbeatStage} {f}
    {r : Written × HeartbeatStage} (hf : c.statement stage = some f)
    (hr : f (db.overlay w) = .ok r)
    (hwrote : (Txn.heartbeat c stage).Wrote db w) :
    Sound (db.overlay w) r.1
      ∧ (Txn.heartbeat c r.2).Wrote db (w.overlay r.1.written) := by
  unfold Heartbeat.statement at hf
  cases stage with
  | session =>
      cases hf
      obtain rfl : w = .empty := hwrote
      obtain ⟨rows, hrows, rfl⟩ := map_eq_ok hr
      refine ⟨updateSessions_sound hrows (fun s hs => hs.2.2)
        (fun s hs => RestreamSession.beat_becomes hs c.now) [], ?_⟩
      have hdb : db.overlay .empty = db :=
        Sessions.Versioned.overlay_empty db
      have hview : Db.overlay .empty { Db.empty with sessions := rows }
          = { Db.empty with sessions := rows } :=
        Sessions.Versioned.empty_overlay _
      show (Txn.heartbeat c _).Wrote db
        (Db.overlay .empty { Db.empty with sessions := rows })
      rw [hview]
      cases hempty : rows.rows with
      | nil =>
          have hnone : rows = .empty := Table.ext_rows hempty
          rw [hnone]
          rfl
      | cons s' rest =>
          have hs' : s' ∈ rows := by
            rw [Table.mem_def, hempty]
            exact List.mem_cons_self
          refine wrote_reporting ?_ _
          rw [hdb] at hrows
          exact touches_beat hrows hs'
  | destination next rest =>
      cases hf
      cases hr
      refine ⟨sound_of_no_sessions rfl fun d' hd' => Or.inl ?_, ?_⟩
      · obtain ⟨d, hd, -, hbecomes⟩ := updateDestinations_known
          (f := fun d => d.report next) (fun _ => rfl)
          (fun d => ⟨rfl, rfl, Nat.le_max_left _ _⟩) hd'
        exact ⟨d, hd, hbecomes⟩
      · refine wrote_reporting (hwrote.report fun d' hd' => ?_) _
        obtain ⟨d, -, ⟨hkey, -⟩, hbecomes⟩ := updateDestinations_known
          (f := fun d => d.report next) (fun _ => rfl)
          (fun d => ⟨rfl, rfl, Nat.le_max_left _ _⟩) hd'
        exact congrArg Prod.fst (hbecomes.key.trans hkey)
  | done found => cases hf

/-- Every statement of a transaction is sound, and the transaction goes on
with what it wrote. -/
theorem statement_sound {txn txn' : Txn} {statement} {draw : SessionID}
    (hnext : (programs hashIngestKey).statement txn = some statement)
    (hok : statement (db.overlay w) draw = .ok (effect, txn'))
    (hwrote : txn.Wrote db w) :
    Sound (db.overlay w) effect
      ∧ txn'.Wrote db (w.overlay effect.written) := by
  cases txn with
  | authorizePublisher c stage =>
      obtain ⟨f, hf, rfl⟩ := Option.map_eq_some_iff.mp hnext
      obtain ⟨r, hr, he⟩ := map_eq_ok hok
      cases he
      exact authorizePublisher_statement hf hr hwrote
  | heartbeat c stage =>
      obtain ⟨f, hf, rfl⟩ := Option.map_eq_some_iff.mp hnext
      obtain ⟨r, hr, he⟩ := map_eq_ok hok
      cases he
      exact heartbeat_statement hf hr hwrote

-- ================================ invariants

/-- What holds of the committed rows and of the open transactions. -/
def facts : Sessions.Facts Db Lock Call Txn where
  good _ db := db.OneActive ∧ ∀ s ∈ db.sessions, s.Check
  held _ db s := Advances db s.written ∧ Sole db s.written s.locks
    ∧ s.txn.Wrote db s.written

theorem fresh_wrote {txn : Txn} (h : txn.fresh = true) :
    txn.Wrote db .empty := by
  cases txn with
  | authorizePublisher c stage =>
      cases of_decide_eq_true h
      rfl
  | heartbeat c stage =>
      cases of_decide_eq_true h
      rfl

theorem checked_overlay (h : ∀ s ∈ db.sessions, s.Check)
    (hw : Advances db w) : ∀ s ∈ (db.overlay w).sessions, s.Check := by
  intro s hs
  rcases Table.mem_overlay.mp hs with hs | ⟨hs, -⟩
  · exact hw.checked s hs
  · exact h s hs

/-- The facts of the plane are kept by every step. -/
theorem facts_inductive :
    Sessions.Inductive (programs hashIngestKey) facts where
  call hgood hcall := by
    have hsound := call_sound hcall
    exact ⟨hgood.1.overlay hsound.advances hsound.sole,
      checked_overlay hgood.2 hsound.advances⟩
  start _ hfresh :=
    ⟨advances_empty _, sole_of_known fun _ hs =>
      absurd hs Table.not_mem_empty, fresh_wrote hfresh⟩
  statement _ hheld hnext hok := by
    obtain ⟨hadvances, hsole, hwrote⟩ := hheld
    obtain ⟨hsound, hwrote'⟩ := statement_sound hnext hok hwrote
    exact ⟨hadvances.extend hsound.advances,
      hsole.extend hsound.advances hsound.sole, hwrote'⟩
  commit hgood hheld _ :=
    ⟨hgood.1.overlay hheld.1 hheld.2.1, checked_overlay hgood.2 hheld.1⟩
  stable_call _ hheld hcall hlets := by
    obtain ⟨hadvances, hsole, hwrote⟩ := hheld
    have hsound := call_sound hcall
    exact ⟨hadvances.stable hlets.1,
      hsole.stable hsound.advances hsound.sole hlets.1 hlets.2,
      hwrote.stable hlets.1⟩
  stable_commit _ hheld hother _ hlets := by
    obtain ⟨hadvances, hsole, hwrote⟩ := hheld
    exact ⟨hadvances.stable hlets.1,
      hsole.stable hother.1 hother.2.1 hlets.1 hlets.2,
      hwrote.stable hlets.1⟩

theorem reachable_facts (hashIngestKey : String → String)
    (actions : List Action) :
    facts.On (World.after hashIngestKey actions) := by
  have hreachable : Sessions.Reachable (programs hashIngestKey) .empty
      (World.after hashIngestKey actions) := ⟨actions, rfl⟩
  refine facts_inductive.reachable ⟨fun s hs => ?_, fun s hs => ?_⟩
    hreachable
  · exact absurd hs Table.not_mem_empty
  · exact absurd hs Table.not_mem_empty

theorem step_becomes {w : World} (hw : facts.On w) (action : Action) :
    w.db.Becomes (Sessions.step (programs hashIngestKey) w action).db := by
  have hstep : Sessions.Step (programs hashIngestKey) w
      (Sessions.step (programs hashIngestKey) w action) :=
    Sessions.step_cases w action
  revert hstep
  generalize Sessions.step (programs hashIngestKey) w action = w'
  intro hstep
  cases hstep with
  | idle | start | statement | drop => exact .refl _
  | call hcall => exact (call_sound hcall).advances.becomes
  | commit hs => exact (hw.2 _ hs).1.becomes

/-- The rows of a later store are versions of the earlier ones. -/
theorem run_becomes (actions later : List Action) :
    (World.after hashIngestKey actions).db.Becomes
      (World.after hashIngestKey (actions ++ later)).db := by
  induction later using List.reverseRecOn with
  | nil =>
      rw [List.append_nil]
      exact .refl _
  | append_singleton later action ih =>
      have hsnoc : World.after hashIngestKey (actions ++ (later ++ [action]))
          = Sessions.step (programs hashIngestKey)
            (World.after hashIngestKey (actions ++ later)) action := by
        rw [← List.append_assoc]
        exact Run.run_snoc _ _ _
      rw [hsnoc]
      exact ih.trans (step_becomes (reachable_facts _ _) action)

-- =================================== reports

/-- Nothing but the rows of one session differs. -/
structure Db.OnlySession (sessionID : SessionID) (db db' : Db) : Prop where
  ingests : db'.ingests = db.ingests
  destinations : db'.destinations = db.destinations
  sessions : ∀ id, id ≠ sessionID →
    db'.sessions.get? id = db.sessions.get? id
  sessionDestinations : ∀ k : SessionID × DestinationID, k.1 ≠ sessionID →
    db'.sessionDestinations.get? k = db.sessionDestinations.get? k

/-- Writes that are all of one session touch only that session. -/
theorem Db.OnlySession.of_writes {sessionID : SessionID}
    (hsessions : ∀ s ∈ w.sessions, s.sessionID = sessionID)
    (hdestinations : ∀ d ∈ w.sessionDestinations, d.sessionID = sessionID)
    (hingests : w.ingests = .empty) (hsaved : w.destinations = .empty) :
    db.OnlySession sessionID (db.overlay w) where
  ingests := by
    show db.ingests.overlay w.ingests = db.ingests
    rw [hingests, Table.overlay_empty]
  destinations := by
    show db.destinations.overlay w.destinations = db.destinations
    rw [hsaved, Table.overlay_empty]
  sessions id hid := by
    show (db.sessions.overlay w.sessions).get? id = _
    have hnone : w.sessions.get? id = none :=
      Table.get?_eq_none.mpr fun s hs he => hid (he ▸ hsessions s hs)
    rw [Table.get?_overlay, hnone, Option.none_or]
  sessionDestinations k hk := by
    show (db.sessionDestinations.overlay w.sessionDestinations).get? k = _
    have hnone : w.sessionDestinations.get? k = none :=
      Table.get?_eq_none.mpr fun d hd he => hk (he ▸ hdestinations d hd)
    rw [Table.get?_overlay, hnone, Option.none_or]

/-- The session that a node speaks of is there, and has not ended. -/
def Db.Finds (db : Db) (nodeID : String) (sessionID : SessionID) : Prop :=
  ∃ s ∈ db.sessions, s.Is nodeID sessionID

/-- The session is the only one that endSession writes, and whether it
finds it is what it returns. -/
def Db.EndsOnly (db : Db) (nodeID : String) (sessionID : SessionID)
    (now : Time) : Prop :=
  ∃ r, endSession nodeID sessionID now db = .ok r
    ∧ (r.2 = true ↔ db.Finds nodeID sessionID)
    ∧ (r.2 = false → r.1.written = .empty)
    ∧ db.OnlySession sessionID (db.overlay r.1.written)

/-- Whether the first statement of heartbeat finds the session is what
heartbeat goes on with; at its end it reports false and writes nothing,
or the session is there and the only one it writes. -/
structure Beats (hashIngestKey : String → String) (w : World)
    (c : Heartbeat) : Prop where
  first : ∃ f r, c.statement .session = some f ∧ f w.db = .ok r
    ∧ (w.db.Finds c.nodeID c.sessionID → r.2 = reporting c.destinations)
    ∧ (¬ w.db.Finds c.nodeID c.sessionID → r.2 = .done false)
  refused : ∀ s ∈ w.sessions, s.txn = .heartbeat c (.done false) →
    ∀ draw, (Sessions.step (programs hashIngestKey) w
      (.proceed s.sessionID draw)).db = w.db
  found : ∀ s ∈ w.sessions, s.txn = .heartbeat c (.done true) →
    w.db.Finds c.nodeID c.sessionID
      ∧ ∀ draw, w.db.OnlySession c.sessionID
        (Sessions.step (programs hashIngestKey) w
          (.proceed s.sessionID draw)).db

/-- With the commit of an authorization the session that it returns is
there, and those of the user that were there are ended. -/
def Replaces (hashIngestKey : String → String) (w : World)
    (s : Sessions.Session Db Lock Txn) : Prop :=
  ∀ c userID a, s.txn = .authorizePublisher c (.done (some (userID, a))) →
    ∀ draw, ∀ db', db' = (Sessions.step (programs hashIngestKey) w
      (.proceed s.sessionID draw)).db →
    (∀ t ∈ w.db.sessions, t.sessionID ≠ a.sessionID)
      ∧ (∃ t ∈ db'.sessions, t.sessionID = a.sessionID ∧ t.userID = userID
        ∧ t.status = .connecting)
      ∧ ∀ t ∈ w.db.sessions, t.userID = userID →
        ∃ t' ∈ db'.sessions, t.Becomes t' ∧ t'.status = .ended

theorem RestreamSession.finish_check {s : RestreamSession}
    (h : s.Check) (now : Time) : (s.finish now).Check := ⟨rfl, h.2⟩

theorem RestreamSession.beat_check {s : RestreamSession}
    (h : s.Check) (hactive : s.active = true) (now : Time) :
    (s.beat now).Check := by
  refine ⟨⟨rfl, ?_⟩, h.2⟩
  obtain ⟨hshaped, -⟩ := h
  unfold RestreamSession.Shaped at hshaped
  unfold RestreamSession.active at hactive
  cases hstatus : s.status with
  | connecting =>
      rw [hstatus] at hshaped
      exact hshaped.2
  | live =>
      rw [hstatus] at hshaped
      exact hshaped.2
  | ended =>
      rw [hstatus] at hactive
      cases hactive

/-- An UPDATE whose rows pass the check. -/
theorem updateSessions_succeeds {p : RestreamSession → Prop}
    [DecidablePred p] {f : RestreamSession → RestreamSession}
    {hf : ∀ s, (f s).sessionID = s.sessionID}
    (hcheck : ∀ s ∈ db.sessions, p s → (f s).Check) :
    ∃ rows, db.updateSessions p f hf = .ok rows := by
  cases h : db.updateSessions p f hf with
  | ok rows => exact ⟨rows, rfl⟩
  | error e =>
      obtain ⟨s, hs, hp, herror⟩ := Table.modify?_error h
      unfold RestreamSession.stored at herror
      rw [if_pos (hcheck s hs hp)] at herror
      cases herror

section Found

variable {nodeID : String} {sessionID : SessionID}
  {f : RestreamSession → RestreamSession}
  {hf : ∀ s, (f s).sessionID = s.sessionID}
  {rows : Table RestreamSession.sessionID}

theorem rows_of_finds
    (h : db.updateSessions (RestreamSession.Is nodeID sessionID) f hf
      = .ok rows) (hfinds : db.Finds nodeID sessionID) :
    rows.rows.isEmpty = false := by
  obtain ⟨s, hs, his⟩ := hfinds
  have hmem := mem_updateSessions h hs his
  rw [Table.mem_def] at hmem
  rw [List.isEmpty_eq_false_iff]
  exact List.ne_nil_of_mem hmem

theorem rows_of_not_finds
    (h : db.updateSessions (RestreamSession.Is nodeID sessionID) f hf
      = .ok rows) (hnot : ¬ db.Finds nodeID sessionID) : rows = .empty := by
  refine Table.ext_rows (List.eq_nil_iff_forall_not_mem.mpr fun s' hs' => ?_)
  obtain ⟨s, hs, his, -, -⟩ := of_mem_updateSessions h hs'
  exact hnot ⟨s, hs, his⟩

end Found

/-- Ending a session ends that session only. -/
theorem endsOnly (hchecked : ∀ s ∈ db.sessions, s.Check) (nodeID : String)
    (sessionID : SessionID) (now : Time) :
    db.EndsOnly nodeID sessionID now := by
  have hsucceeds : ∃ rows, db.updateSessions
      (RestreamSession.Is nodeID sessionID) (RestreamSession.finish now)
      (fun _ => rfl) = .ok rows :=
    updateSessions_succeeds fun s hs _ =>
      RestreamSession.finish_check (hchecked s hs) now
  obtain ⟨rows, hrows⟩ := hsucceeds
  refine ⟨({ written := { Db.empty with sessions := rows } },
    !rows.rows.isEmpty), ?_, ?_, fun hnone => ?_, ?_⟩
  · unfold endSession
    rw [hrows]
    rfl
  · constructor
    · intro hfound
      by_contra hnot
      rw [rows_of_not_finds hrows hnot] at hfound
      cases hfound
    · intro hfinds
      show (!rows.rows.isEmpty) = true
      rw [rows_of_finds hrows hfinds]
      rfl
  · have hempty : rows = .empty := by
      by_cases hfinds : db.Finds nodeID sessionID
      · have hnone : (!rows.rows.isEmpty) = false := hnone
        rw [rows_of_finds hrows hfinds] at hnone
        cases hnone
      · exact rows_of_not_finds hrows hfinds
    rw [hempty]
    rfl
  · refine Db.OnlySession.of_writes (fun s' hs' => ?_)
      (fun d hd => absurd hd Table.not_mem_empty) rfl rfl
    obtain ⟨s, -, his, rfl, -⟩ := of_mem_updateSessions hrows hs'
    exact his.1

/-- The first statement of a heartbeat goes on to its report exactly where the
session is found. -/
theorem heartbeat_first (hchecked : ∀ s ∈ db.sessions, s.Check)
    (c : Heartbeat) :
    ∃ f r, c.statement .session = some f ∧ f db = .ok r
      ∧ (db.Finds c.nodeID c.sessionID → r.2 = reporting c.destinations)
      ∧ (¬ db.Finds c.nodeID c.sessionID → r.2 = .done false) := by
  have hsucceeds : ∃ rows, db.updateSessions
      (RestreamSession.Is c.nodeID c.sessionID) (RestreamSession.beat c.now)
      (fun _ => rfl) = .ok rows :=
    updateSessions_succeeds fun s hs his =>
      RestreamSession.beat_check (hchecked s hs) his.2.2 c.now
  obtain ⟨rows, hrows⟩ := hsucceeds
  refine ⟨_, ({ written := { Db.empty with sessions := rows } },
    if rows.rows.isEmpty then .done false else reporting c.destinations),
    rfl, ?_, fun hfinds => ?_, fun hnot => ?_⟩
  · show (Db.updateSessions _ _ _ _).map _ = _
    rw [hrows]
    rfl
  · show (if rows.rows.isEmpty then HeartbeatStage.done false
      else reporting c.destinations) = _
    rw [rows_of_finds hrows hfinds]
    rfl
  · show (if rows.rows.isEmpty then HeartbeatStage.done false
      else reporting c.destinations) = _
    rw [rows_of_not_finds hrows hnot]
    rfl

/-- A heartbeat does what it should in every reachable world. -/
theorem beats {w : World} (hw : facts.On w) (c : Heartbeat) :
    Beats hashIngestKey w c where
  first := heartbeat_first hw.1.2 c
  refused s hs htxn draw := by
    have hend : (programs hashIngestKey).statement s.txn = none := by
      rw [htxn]
      rfl
    have hwrote := (hw.2 s hs).2.2
    rw [htxn] at hwrote
    rw [Sessions.step_commit hs hend draw]
    show w.db.overlay s.written = w.db
    rw [show s.written = .empty from hwrote]
    exact Sessions.Versioned.overlay_empty _
  found s hs htxn := by
    have hend : (programs hashIngestKey).statement s.txn = none := by
      rw [htxn]
      rfl
    have hwrote := (hw.2 s hs).2.2
    rw [htxn] at hwrote
    have htouches : Touches c.nodeID c.sessionID w.db s.written := hwrote
    refine ⟨htouches.found, fun draw => ?_⟩
    rw [Sessions.step_commit hs hend draw]
    exact Db.OnlySession.of_writes htouches.sessions htouches.destinations
      htouches.ingests htouches.saved

/-- A publisher's transaction replaces what it should in every reachable
world. -/
theorem replaces {w : World} (hw : facts.On w)
    {s : Sessions.Session Db Lock Txn} (hs : s ∈ w.sessions) :
    Replaces hashIngestKey w s := by
  intro c userID a htxn draw db' hdb'
  have hend : (programs hashIngestKey).statement s.txn = none := by
    rw [htxn]
    rfl
  obtain ⟨hadvances, hsole, hwrote⟩ := hw.2 s hs
  rw [htxn] at hwrote
  obtain ⟨t, ht, hid, huser, hstatus, hfresh⟩ := hwrote
  rw [Sessions.step_commit hs hend draw] at hdb'
  obtain rfl : db' = w.db.overlay s.written := hdb'
  have hactive : t.active = true := by
    unfold RestreamSession.active
    rw [hstatus]
    rfl
  have hnew : ∀ q ∈ w.db.sessions, q.sessionID ≠ a.sessionID :=
    fun q hq => hid ▸ hfresh q hq
  refine ⟨hnew, ⟨t, Table.mem_overlay.mpr (Or.inl ht), hid, huser, hstatus⟩,
    fun q hq hquser => ?_⟩
  obtain ⟨q', hq', hbecomes⟩ := hadvances.becomes.sessions q hq
  refine ⟨q', hq', hbecomes, ?_⟩
  cases hstatus' : q'.status with
  | ended => rfl
  | connecting | live =>
      -- it would be a second one of the user
      have hactive' : q'.active = true := by
        unfold RestreamSession.active
        rw [hstatus']
        rfl
      have hsame := (hsole t ht hactive hfresh).2 q' hq' hactive'
        (hbecomes.userID.trans (hquser.trans huser.symm))
      exact absurd (hbecomes.sessionID.symm.trans (hsame.trans hid))
        (hnew q hq)

/-- In every state that the control plane reaches: each user has at most
one session that has not ended, the rows of the sessions have the shape
of their status, and every later row of a session or of one of its
destinations is a version of the earlier one. endSession and heartbeat
write the session that they name and no other, or report that there is
none; an authorization that succeeds ends the sessions of its user as it
commits. -/
theorem sessions_kept (hashIngestKey : String → String)
    (actions : List Action) :
    (World.after hashIngestKey actions).db.OneActive
      ∧ (∀ s ∈ (World.after hashIngestKey actions).db.sessions, s.Shaped)
      ∧ (∀ later, (World.after hashIngestKey actions).db.Becomes
        (World.after hashIngestKey (actions ++ later)).db)
      ∧ (∀ nodeID sessionID now,
        (World.after hashIngestKey actions).db.EndsOnly nodeID sessionID now)
      ∧ (∀ c, Beats hashIngestKey (World.after hashIngestKey actions) c)
      ∧ ∀ s ∈ (World.after hashIngestKey actions).sessions,
        Replaces hashIngestKey (World.after hashIngestKey actions) s := by
  have hw := reachable_facts hashIngestKey actions
  obtain ⟨hone, hchecked⟩ := hw.1
  refine ⟨hone, fun s hs => (hchecked s hs).1, run_becomes actions, ?_,
    beats hw, fun s hs => replaces hw hs⟩
  exact fun nodeID sessionID now =>
    endsOnly hchecked nodeID sessionID now

/-- A user is authorized; the session goes live; another authorization
ends it, and a late heartbeat finds nothing. -/
def replacement : List Action :=
  [.call (.rotateIngestKey 1 "key"),
    .call (.createDestination 1 "rtmp://one.example/app" "secret" "d"),
    .start 0 (.authorizePublisher ⟨"node", "first", "key", 1000⟩ .ingest),
    .proceed 0 "", .proceed 0 "", .proceed 0 "", .proceed 0 "s1",
    .proceed 0 "", .proceed 0 "",
    .start 1 (.heartbeat ⟨"node", "s1", [⟨"d", .forwarding, 7⟩], 2000⟩
      .session),
    .proceed 1 "", .proceed 1 "", .proceed 1 "",
    .start 2 (.authorizePublisher ⟨"node", "second", "key", 3000⟩ .ingest),
    .proceed 2 "", .proceed 2 "", .proceed 2 "", .proceed 2 "s2",
    .proceed 2 "", .proceed 2 "",
    .start 3 (.heartbeat ⟨"node", "s1", [⟨"d", .forwarding, 9⟩], 4000⟩
      .session),
    .proceed 3 ""]

example :
    (World.after id replacement).db.sessions.rows.map
        (fun s => (s.sessionID, s.status, s.liveAt, s.endedAt))
      = [("s1", .ended, some 2000, some 3000), ("s2", .connecting, none, none)]
      ∧ (World.after id replacement).sessions.rows.map (fun s => s.txn)
        = [.heartbeat ⟨"node", "s1", [⟨"d", .forwarding, 9⟩], 4000⟩
          (.done false)] := by
  decide

end StreamBrew.Restream.Plane
