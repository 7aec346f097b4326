/-
The lifecycle of one playback: everything a statement may do to a row
that is already in the table, the claim by a player excepted.

`Move` is the lifecycle diagram of the feature description, with the
columns each arrow writes. It is stated once; what a row keeps along
the diagram (its shape, its snapshot, its start) is one case analysis
each, and no later proof looks at a `SET` clause again.
-/
import StreamBrew.Alert.Retention

namespace StreamBrew.Alert

open Relational

-- ===================================== shape

/-- The columns a row may have set in its status. -/
structure Playback.WellShaped (r : Playback) : Prop where
  waiting : r.status.Waiting → r.startedAt = none ∧ r.finishedAt = none
    ∧ r.playerID = none ∧ r.playerGeneration = none
  finished : r.finishedAt ≠ none ↔ r.status.Terminal
  presented : r.status = .completed ∨ r.status = .interrupted →
    r.startedAt ≠ none
  unseen : r.status = .expired → r.startedAt = none
  lease : r.preparationLeaseExpiresAt ≠ none → r.status = .preparing
  speech : r.status = .preparing → r.message ≠ none ∧ r.ttsAssetID = none
  attempts : r.preparationGeneration = r.preparationAttempts
    ∧ r.preparationAttempts ≤ preparationTries

/-- A reference that was kept or dropped. -/
def KeptOrDropped (old new : Option AssetID) : Prop :=
  new = old ∨ new = none

/-- A claimed playback that recovery sends back to the queue. -/
def Playback.Returnable (now : Time) (r : Playback) : Prop :=
  r.status = .playing ∧ r.startedAt = none ∧ r.expiresAt > now

instance (now : Time) : DecidablePred (Playback.Returnable now) :=
  fun _ => inferInstanceAs (Decidable (_ ∧ _))

-- =============================== the diagram

/-- The rows a call may treat specially, and the users it may queue
for. What only some calls may do carries a grant; all other arrows are
open to every call. -/
structure Grant where
  /-- claim for preparation -/
  prepare : Playback → Prop := fun _ => False
  /-- attach speech -/
  speak : Playback → Prop := fun _ => False
  /-- return to the queue, claimed and not started -/
  back : Playback → Prop := fun _ => False
  /-- start -/
  start : Playback → Prop := fun _ => False
  /-- drop media references of the history -/
  release : Playback → Prop := fun _ => False
  /-- delete from the history -/
  retire : Playback → Prop := fun _ => False
  /-- queue a playback for a user -/
  queue : UserID → Prop := fun _ => False
  /-- queue the incoming playback of a donation -/
  incoming : DonationID → Prop := fun _ => False
  /-- store a donation -/
  donate : Donation → Prop := fun _ => False
  /-- give a user's overlay a token -/
  rotate : UserID → TokenHash → Prop := fun _ _ => False

/-- What a statement may do to a row of the table; `has` tells which
media files a user has. -/
inductive Move (has : UserID → AssetID → Prop) (g : Grant) :
    Playback → Playback → Prop
  | refl (r) : Move has g r r
  | expire {r : Playback} (hr : r.status.Waiting) (now : Time)
      (reason : DiagnosticCode) : Move has g r (r.expire now reason)
  | skip {r : Playback} (hr : r.status = .playing ∨ r.status.Waiting)
      (now : Time) : Move has g r (r.skip now)
  /-- preparation -/
  | claimPreparation {r : Playback} (hg : g.prepare r)
      (hr : r.status = .preparing)
      (htries : r.preparationAttempts < preparationTries) (now : Time) :
      Move has g r (r.claimPreparation now)
  | abandonSpeech {r : Playback} (hr : r.status = .preparing) :
      Move has g r r.abandonSpeech
  | retry {r : Playback} (hr : r.status = .preparing) (t : Time) :
      Move has g r { r with
        availableAt := t
        preparationLeaseExpiresAt := none
        lastError := some .ttsUnavailable }
  | attachSpeech {r : Playback} (hg : g.speak r)
      (hr : r.status = .preparing) {assetID : AssetID}
      (hhas : has r.userID assetID) :
      Move has g r (r.attachSpeech assetID)
  /-- a claim that was not started -/
  | handBack {r : Playback} (hg : g.back r) (hr : r.status = .playing)
      (hstart : r.startedAt = none) :
      Move has g r { r with
        status := .pending, finishedAt := none, playerID := none
        playerGeneration := none, lastError := none }
  | lapse {r : Playback} (hr : r.status = .playing)
      (hstart : r.startedAt = none) (t : Time) :
      Move has g r { r with
        status := .expired, finishedAt := some t, playerID := none
        playerGeneration := none, lastError := some .alertExpired }
  | start {r : Playback} (hg : g.start r) (hr : r.status = .playing)
      (hstart : r.startedAt = none) (t : Time) :
      Move has g r { r with startedAt := some t }
  /-- a started playback -/
  | interrupt {r : Playback} (hr : r.status = .playing)
      (hstart : r.startedAt ≠ none) (t : Time) (code : DiagnosticCode) :
      Move has g r { r with
        status := .interrupted, finishedAt := some t
        lastError := some code }
  | complete {r : Playback} (hr : r.status = .playing)
      (hstart : r.startedAt ≠ none) (t : Time) :
      Move has g r { r with status := .completed, finishedAt := some t }
  /-- history -/
  | releaseMedia {r : Playback} (hg : g.release r)
      (hr : r.status.Terminal) {image sound tts : Option AssetID}
      (himage : KeptOrDropped r.imageAssetID image)
      (hsound : KeptOrDropped r.soundAssetID sound)
      (htts : KeptOrDropped r.ttsAssetID tts) :
      Move has g r { r with
        imageAssetID := image, soundAssetID := sound, ttsAssetID := tts }

variable {has : UserID → AssetID → Prop} {g : Grant} {r r' : Playback}

-- ========================== what a row keeps

namespace Move

theorem queueSequence (h : Move has g r r') :
    r'.queueSequence = r.queueSequence := by
  cases h <;> rfl

theorem playbackID (h : Move has g r r') :
    r'.playbackID = r.playbackID := by
  cases h <;> rfl

theorem userID (h : Move has g r r') : r'.userID = r.userID := by
  cases h <;> rfl

theorem kind (h : Move has g r r') : r'.kind = r.kind := by
  cases h <;> rfl

theorem donationID (h : Move has g r r') :
    r'.donationID = r.donationID := by
  cases h <;> rfl

/-- The start, once recorded, stays as it is. -/
theorem startedAt {t : Time} (h : Move has g r r')
    (hr : r.startedAt = some t) : r'.startedAt = some t := by
  cases h with
  | start _ _ hnone => rw [hnone] at hr; cases hr
  | _ => exact hr

/-- A row that is over stays as it is over. -/
theorem terminal (h : Move has g r r') (hr : r.status.Terminal) :
    r'.status = r.status := by
  have hover := (PlaybackStatus.terminal_iff _).mp hr
  cases h with
  | refl => rfl
  | releaseMedia => rfl
  | expire hw => exact absurd hw hover.1
  | skip hw => exact absurd hw (not_or.mpr ⟨hover.2, hover.1⟩)
  | claimPreparation _ hs => exact absurd (Or.inl hs) hover.1
  | abandonSpeech hs => exact absurd (Or.inl hs) hover.1
  | retry hs => exact absurd (Or.inl hs) hover.1
  | attachSpeech _ hs => exact absurd (Or.inl hs) hover.1
  | handBack _ hs => exact absurd hs hover.2
  | lapse hs => exact absurd hs hover.2
  | start _ hs => exact absurd hs hover.2
  | interrupt hs => exact absurd hs hover.2
  | complete hs => exact absurd hs hover.2

/-- A row that plays after a move was playing before, for the same
player. -/
theorem playing (h : Move has g r r') (hr : r'.status = .playing) :
    r.status = .playing ∧ r'.playerID = r.playerID
      ∧ r'.playerGeneration = r.playerGeneration := by
  cases h with
  | refl => exact ⟨hr, rfl, rfl⟩
  | start _ hs => exact ⟨hs, rfl, rfl⟩
  | claimPreparation _ hs =>
      have hp : r.status = .playing := hr
      rw [hs] at hp
      cases hp
  | retry hs =>
      have hp : r.status = .playing := hr
      rw [hs] at hp
      cases hp
  | releaseMedia _ hterm =>
      have hp : r.status = .playing := hr
      rw [hp] at hterm
      simp [PlaybackStatus.Terminal] at hterm
  | _ => cases hr

/-- A started row keeps its player to the end. -/
theorem player (h : Move has g r r') (hr : r.startedAt ≠ none) :
    r'.playerID = r.playerID
      ∧ r'.playerGeneration = r.playerGeneration := by
  cases h with
  | handBack _ _ hnone => exact absurd hnone hr
  | lapse _ hnone => exact absurd hnone hr
  | _ => exact ⟨rfl, rfl⟩

/-- Every arrow leaves the columns of its new status in place. -/
theorem wellShaped (h : Move has g r r') (hr : r.WellShaped) :
    r'.WellShaped := by
  have hw := hr.waiting
  have hf := hr.finished
  have hp := hr.presented
  have hu := hr.unseen
  have hl := hr.lease
  have hs := hr.speech
  have ha := hr.attempts
  cases h with
  | refl => exact hr
  | expire hst now reason =>
      obtain ⟨hstart, -⟩ := hw hst
      constructor <;>
        simp_all [Playback.expire, PlaybackStatus.Waiting,
          PlaybackStatus.Terminal]
  | skip hst now =>
      constructor <;>
        simp_all [Playback.skip, PlaybackStatus.Waiting,
          PlaybackStatus.Terminal]
  | claimPreparation _ hst htries now =>
      constructor <;>
        simp_all [Playback.claimPreparation, PlaybackStatus.Waiting,
          PlaybackStatus.Terminal]
  | abandonSpeech hst =>
      constructor <;>
        simp_all [Playback.abandonSpeech, PlaybackStatus.Waiting,
          PlaybackStatus.Terminal]
  | retry hst t =>
      constructor <;>
        simp_all [PlaybackStatus.Waiting, PlaybackStatus.Terminal]
  | attachSpeech _ hst hhas =>
      constructor <;>
        simp_all [Playback.attachSpeech, PlaybackStatus.Waiting,
          PlaybackStatus.Terminal]
  | handBack _ hst hstart =>
      constructor <;>
        simp_all [PlaybackStatus.Waiting, PlaybackStatus.Terminal]
  | lapse hst hstart t =>
      constructor <;>
        simp_all [PlaybackStatus.Waiting, PlaybackStatus.Terminal]
  | start _ hst hstart t =>
      constructor <;>
        simp_all [PlaybackStatus.Waiting, PlaybackStatus.Terminal]
  | interrupt hst hstart t code =>
      constructor <;>
        simp_all [PlaybackStatus.Waiting, PlaybackStatus.Terminal]
  | complete hst hstart t =>
      constructor <;>
        simp_all [PlaybackStatus.Waiting, PlaybackStatus.Terminal]
  | releaseMedia _ hterm =>
      refine ⟨hw, hf, hp, hu, hl, fun hprep => ?_, ha⟩
      have hprep' : r.status = .preparing := hprep
      rw [hprep'] at hterm
      simp [PlaybackStatus.Terminal] at hterm

/-- A row that waits after a move waited before, or was handed back. -/
theorem waiting (h : Move has g r r') (hr : r'.status.Waiting) :
    r.status.Waiting
      ∨ (g.back r ∧ r.status = .playing ∧ r.startedAt = none) := by
  cases h with
  | refl => exact Or.inl hr
  | claimPreparation _ hs => exact Or.inl (Or.inl hs)
  | abandonSpeech hs => exact Or.inl (Or.inl hs)
  | retry hs => exact Or.inl (Or.inl hs)
  | attachSpeech _ hs => exact Or.inl (Or.inl hs)
  | handBack hg hs hstart => exact Or.inr ⟨hg, hs, hstart⟩
  | start _ hs => exact absurd hr (by
      show ¬ r.status.Waiting
      rw [hs]; simp [PlaybackStatus.Waiting])
  | releaseMedia _ hterm =>
      exact absurd hr ((PlaybackStatus.terminal_iff _).mp hterm).1
  | _ => exact absurd hr (by
      simp [PlaybackStatus.Waiting, Playback.expire, Playback.skip])

/-- A row names only files its user has, if it did before. -/
theorem references (h : Move has g r r') {assetID : AssetID}
    (hr : r'.References assetID) :
    r.References assetID ∨ has r.userID assetID := by
  cases h with
  | attachSpeech _ hs hhas =>
      rcases hr with hr | hr | hr
      · exact Or.inl (Or.inl hr)
      · exact Or.inl (Or.inr (Or.inl hr))
      · cases hr
        exact Or.inr hhas
  | releaseMedia _ hterm himage hsound htts =>
      left
      rcases hr with hr | hr | hr
      · rcases himage with rfl | rfl
        · exact Or.inl hr
        · cases hr
      · rcases hsound with rfl | rfl
        · exact Or.inr (Or.inl hr)
        · cases hr
      · rcases htts with rfl | rfl
        · exact Or.inr (Or.inr hr)
        · cases hr
  | _ => exact Or.inl hr

end Move

-- ================ the SET clauses are arrows

/-- Taking a playing row from its player follows the diagram. -/
theorem Playback.move_recover (now : Time) (reason : DiagnosticCode)
    (hr : r.status = .playing) (hg : r.Returnable now → g.back r) :
    Move has g r (r.recover now reason) := by
  by_cases hstart : r.startedAt = none
  · by_cases hfresh : r.expiresAt > now
    · have hback : Move has g r _ :=
        .handBack (hg ⟨hr, hstart, hfresh⟩) hr hstart
      simpa [Playback.recover, hstart, hfresh] using hback
    · have hlapse : Move has g r _ := .lapse hr hstart (jsDate now)
      simpa [Playback.recover, hstart, hfresh] using hlapse
  · have hover : Move has g r _ := .interrupt hr hstart (jsDate now) reason
    simpa [Playback.recover, hstart] using hover

/-- Ending a timed-out row follows the diagram. -/
theorem Playback.move_timeOut (now : Time) (hr : r.status = .playing) :
    Move has g r (r.timeOut now) := by
  by_cases hstart : r.startedAt = none
  · have hlapse : Move has g r _ := .lapse hr hstart (jsDate now)
    simpa [Playback.timeOut, hstart] using hlapse
  · have hover : Move has g r _ := .interrupt hr hstart (jsDate now)
      .playbackTimeout
    simpa [Playback.timeOut, hstart] using hover

/-- A failed preparation follows the diagram. -/
theorem Playback.move_failPreparation (preparation : Preparation)
    (now : Time) (hr : r.status = .preparing) :
    Move has g r (r.failPreparation preparation now) := by
  by_cases hold : r.expiresAt ≤ now
  · have hexpire : Move has g r _ := .expire (Or.inl hr) now .ttsUnavailable
    simpa [Playback.failPreparation, Playback.expire, hold] using hexpire
  · by_cases hlast : preparation.attempts ≥ preparationTries
    · have habandon : Move has g r _ := .abandonSpeech hr
      simpa [Playback.failPreparation, Playback.abandonSpeech, hold, hlast]
        using habandon
    · have hretry : Move has g r _ := .retry hr
        (jsDate (min r.expiresAt (now + preparation.attempts * second)))
      simpa [Playback.failPreparation, hold, hlast, hr] using hretry

/-- An unfinished row has no end. -/
theorem Playback.WellShaped.finishedAt_none (hshape : r.WellShaped)
    (hr : ¬ r.status.Terminal) : r.finishedAt = none := by
  by_contra hne
  exact hr (hshape.finished.mp hne)

/-- A row that is interrupted already stays as it is. -/
theorem Playback.interrupt_again (now : Time) (hr : r.status = .interrupted)
    (hshape : r.WellShaped) : r.interrupt now = r := by
  have hstart : r.startedAt ≠ none := hshape.presented (Or.inr hr)
  have hfin : r.finishedAt ≠ none :=
    hshape.finished.mpr (by rw [hr]; decide)
  obtain ⟨t, ht⟩ := Option.ne_none_iff_exists'.mp hfin
  cases r
  simp_all [Playback.interrupt]

/-- So does a completed row. -/
theorem Playback.complete_again (now : Time) (hr : r.status = .completed)
    (hshape : r.WellShaped) :
    { r with
      status := .completed
      finishedAt := some (r.finishedAt.getD (jsDate now)) } = r := by
  have hfin : r.finishedAt ≠ none :=
    hshape.finished.mpr (by rw [hr]; decide)
  obtain ⟨t, ht⟩ := Option.ne_none_iff_exists'.mp hfin
  cases r
  simp_all

/-- Finishing a held row as interrupted follows the diagram; a row
that is interrupted already stays as it is. -/
theorem Playback.move_interrupt (now : Time)
    (hr : r.status = .playing ∨ r.status = .interrupted)
    (hshape : r.WellShaped) (hg : r.Returnable now → g.back r) :
    Move has g r (r.interrupt now) := by
  rcases hr with hr | hr
  · have hfin : r.finishedAt = none :=
      hshape.finishedAt_none (by rw [hr]; decide)
    by_cases hstart : r.startedAt = none
    · by_cases hfresh : r.expiresAt > now
      · have hback : Move has g r _ :=
          .handBack (hg ⟨hr, hstart, hfresh⟩) hr hstart
        simpa [Playback.interrupt, hstart, hfresh] using hback
      · have hlapse : Move has g r _ := .lapse hr hstart (jsDate now)
        simpa [Playback.interrupt, hstart, hfresh, hfin] using hlapse
    · have hover : Move has g r _ := .interrupt hr hstart (jsDate now)
        (r.lastError.getD .playbackIssue)
      simpa [Playback.interrupt, hstart, hr, hfin] using hover
  · rw [Playback.interrupt_again now hr hshape]
    exact .refl r

/-- Completing a started row follows the diagram; a completed row
stays as it is. -/
theorem Playback.move_complete (now : Time) (hstart : r.startedAt ≠ none)
    (hr : r.status = .playing ∨ r.status = .completed)
    (hshape : r.WellShaped) :
    Move has g r { r with
      status := .completed
      finishedAt := some (r.finishedAt.getD (jsDate now)) } := by
  rcases hr with hr | hr
  · exact .complete hr hstart _
  · rw [Playback.complete_again now hr hshape]
    exact .refl r

/-- Starting a playing row follows the diagram; a second start changes
nothing. -/
theorem Playback.move_start (now : Time) (hr : r.status = .playing)
    (hg : g.start r) :
    Move has g r { r with
      startedAt := some (r.startedAt.getD (jsDate now)) } := by
  cases hstart : r.startedAt with
  | none => exact .start hg hr hstart _
  | some t =>
      have heq : { r with startedAt := some (Option.getD (some t)
          (jsDate now)) } = r := by
        cases r
        simp_all
      rw [heq]
      exact .refl r

end StreamBrew.Alert
