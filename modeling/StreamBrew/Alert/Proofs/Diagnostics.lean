/-
How long the diagnostic of a speech failure stays.

A playback that goes on without speech carries its diagnostic in a column
that recovery, finishing and the backlog write as well. Along the diagram
every arrow from a waiting or a playing row leaves the column alone or
ends the playback, with one exception: the arrow back to the queue. So the
diagnostic is kept until the playback is over, or is handed back; a row
that is handed back starts over without one.
-/
import StreamBrew.Alert.Proofs.Backlog

namespace StreamBrew.Alert

open Relational

variable {g : Grant} {db db' : Db} {r r' : Playback}

/-- What is known of a playback that could not be spoken: it is over, or it
waits or plays with its diagnostic. -/
def Unspoken (r : Playback) : Prop :=
  r.status.Terminal
    ∨ (r.status = .pending ∨ r.status = .playing)
      ∧ r.lastError = some .ttsUnavailable

theorem Unspoken.not_preparing (h : Unspoken r) : r.status ≠ .preparing := by
  intro hr
  rcases h with h | ⟨h, -⟩
  · rw [hr] at h
    exact absurd h (by decide)
  · rw [hr] at h
    rcases h with h | h <;> cases h

/-- A statement that does not hand the row back keeps this. -/
theorem Unspoken.next {has : UserID → AssetID → Prop} (h : Unspoken r)
    (hn : Next has g r r') (hback : ¬ g.back r) : Unspoken r' := by
  have hprep := h.not_preparing
  rcases hn with hmove | ⟨hpending, p, n, rfl⟩
  · cases hmove with
    | refl => exact h
    | expire => exact Or.inl (Or.inr (Or.inr (Or.inl rfl)))
    | skip => exact Or.inl (Or.inr (Or.inl rfl))
    | claimPreparation _ hr => exact absurd hr hprep
    | abandonSpeech hr => exact absurd hr hprep
    | retry hr => exact absurd hr hprep
    | attachSpeech _ hr => exact absurd hr hprep
    | handBack hg => exact absurd hg hback
    | lapse => exact Or.inl (Or.inr (Or.inr (Or.inl rfl)))
    | start _ hr =>
        rcases h with hover | ⟨-, herror⟩
        · rw [hr] at hover
          exact absurd hover (by decide)
        · exact Or.inr ⟨Or.inr hr, herror⟩
    | interrupt => exact Or.inl (Or.inr (Or.inr (Or.inr rfl)))
    | complete => exact Or.inl (Or.inl rfl)
    | releaseMedia => exact h
  · rcases h with hover | ⟨-, herror⟩
    · rw [hpending] at hover
      exact absurd hover (by decide)
    · exact Or.inr ⟨Or.inr rfl, herror⟩

/-- The call hands the playback with this sequence number back. -/
def HandsBack (n : Nat) (db : Db) (a : Action) : Prop :=
  ∃ r ∈ db.playbacks, r.queueSequence = n ∧ a.Returns db r

/-- A call that does not hand the playback back keeps its diagnostic. -/
theorem Settled.unspoken {n : Nat} (hi : Inv db)
    (h : Settled Unspoken n db) {a : Action} (hback : ¬ HandsBack n db a) :
    Settled Unspoken n (apply db a) := by
  have hnamed : Settled (fun r => r.queueSequence = n ∧ Unspoken r) n db :=
    ⟨h.1, fun r hr hq => ⟨hq, h.2 r hr hq⟩⟩
  have hafter := hnamed.steps hi (fun has r r' hr hn =>
    ⟨hn.queueSequence.trans hr.1, hr.2.next hn fun hg =>
      hback ⟨r, hg.1, hr.1, hg.2⟩⟩) (apply_steps hi a)
  exact ⟨hafter.1, fun r hr hq => (hafter.2 r hr hq).2⟩

-- ================================= hand-back

/-- What is known of a claimed playback through the call that hands it
back: where it waits again, it waits without a diagnostic. -/
def Cleared (r : Playback) : Prop :=
  r.status ≠ .preparing ∧ (r.status = .pending → r.lastError = none)

theorem cleared_of_playing (h : r.status = .playing) : Cleared r := by
  refine ⟨fun hr => ?_, fun hr => ?_⟩
  · rw [h] at hr
    cases hr
  · rw [h] at hr
    cases hr

/-- Every statement keeps this. -/
theorem Cleared.next {has : UserID → AssetID → Prop} (h : Cleared r)
    (hn : Next has g r r') : Cleared r' := by
  rcases hn with hmove | ⟨-, p, n, rfl⟩
  · cases hmove with
    | refl | start | releaseMedia => exact h
    | handBack => exact ⟨nofun, fun _ => rfl⟩
    | claimPreparation _ hr | abandonSpeech hr | retry hr
    | attachSpeech _ hr => exact absurd hr h.1
    | expire | skip | lapse | interrupt | complete => exact ⟨nofun, nofun⟩
  · exact ⟨nofun, nofun⟩

/-- A playback that a call hands back is pending without a diagnostic. -/
theorem HandsBack.clears {n : Nat} {a : Action} (hi : Inv db)
    (h : HandsBack n db a) {r' : Playback}
    (hr' : r' ∈ (apply db a).playbacks) (hq' : r'.queueSequence = n) :
    r'.status = .pending ∧ r'.lastError = none := by
  obtain ⟨r, hr, rfl, hreturns⟩ := h
  have hcleared : Settled Cleared r.queueSequence db := by
    refine ⟨hi.bound r hr, fun s hs hq => ?_⟩
    rw [Table.eq_of_key hs hr hq]
    exact cleared_of_playing (playing_of_returns hreturns)
  have hafter := (hcleared.steps hi (fun _ _ _ => Cleared.next)
    (apply_steps hi a)).2 r' hr' hq'
  -- the call leaves it waiting, and nothing else under its number
  obtain ⟨-, s, hs, hsame, hwaiting⟩ := returned_of_returns hr hreturns
  obtain rfl : s = r' := Table.eq_of_key hs hr' (hsame.trans hq'.symm)
  have hpending : s.status = .pending :=
    hwaiting.2.resolve_left hafter.1
  exact ⟨hpending, hafter.2 hpending⟩

-- ==================================== result

/-- On every run a playback that waits without its speech keeps the
diagnostic, through claims, starts and every other call, until it is over
or is handed back to the queue unstarted; and a playback that is handed
back waits without a diagnostic. -/
theorem speech_diagnostic_kept (acts later : List Action) :
    let db := Run.run apply Db.init acts
    (∀ r ∈ db.playbacks, r.status = .pending →
      r.lastError = some .ttsUnavailable →
      Run.Along apply (fun db a => ¬ HandsBack r.queueSequence db a) db
        later →
      ∀ r' ∈ (Run.run apply db later).playbacks,
        r'.queueSequence = r.queueSequence →
        r'.status.Terminal
          ∨ (r'.status = .pending ∨ r'.status = .playing)
            ∧ r'.lastError = some .ttsUnavailable)
    ∧ ∀ n a, HandsBack n db a → ∀ r' ∈ (apply db a).playbacks,
      r'.queueSequence = n → r'.status = .pending ∧ r'.lastError = none := by
  intro db
  have hi : Inv db := Reachable.inv ⟨acts, rfl⟩
  refine ⟨fun r hr hpending herror hlater => ?_,
    fun n a hback r' hr' hq' => hback.clears hi hr' hq'⟩
  have hsettled : Settled Unspoken r.queueSequence db := by
    refine ⟨hi.bound r hr, fun s hs hq => ?_⟩
    rw [Table.eq_of_key hs hr hq]
    exact Or.inr ⟨Or.inl hpending, herror⟩
  have hboth := hlater.preserves
    (P := fun db => Inv db ∧ Settled Unspoken r.queueSequence db)
    ⟨hi, hsettled⟩
    (fun db a h hback => ⟨h.1.apply a, h.2.unspoken h.1 hback⟩)
    later [] (List.append_nil later).symm
  exact hboth.2.2

/-- A preparation that fails for good, and a player that claims what is
left and releases it. -/
def unspokenRun : List Action :=
  let report (attempt : Nat) : Preparation :=
    { playbackID := 7, userID := 1, generation := attempt
      attempts := attempt, text := "This is a test donation alert."
      voice := "ru" }
  [.updateSettings 1
      { enabled := true, enabledSources := [], displayDurationMS := 7000
        soundVolume := 80, ttsEnabled := true, ttsVoice := "ru"
        ttsVolume := 80, accentColor := "#f59e0b", imageAssetID := none
        soundAssetID := none },
    .createTest 1 0 { playbackID := 7, gap := 0 },
    .claimPreparation 0 [], .failPreparation (report 1) 0,
    .claimPreparation second [], .failPreparation (report 2) second,
    .claimPreparation (3 * second) [],
    .failPreparation (report 3) (3 * second),
    .setOverlayTokenHash 1 "overlay" (3 * second),
    .openPlayer "overlay" 5 (3 * second),
    .heartbeat "overlay" 5 1 true true (3 * second),
    .claimPlayback "overlay" 5 1 (3 * second) []]

/-- The diagnostic is kept while the queue is paused, and when the
playback is claimed and started; a player that releases it unstarted
clears it. -/
theorem speech_diagnostic_kept_claimed :
    (∃ r ∈ (Run.run apply Db.init (unspokenRun.take 11)).playbacks,
      r.lastError = some .ttsUnavailable
      ∧ ∀ r' ∈ (Run.run apply Db.init (unspokenRun.take 11
          ++ [.setPaused 1 true, .setPaused 1 false,
            .claimPlayback "overlay" 5 1 (3 * second) [],
            .startPlayback "overlay" 5 1 7 (3 * second)])).playbacks,
        r'.queueSequence = r.queueSequence →
        r'.status.Terminal
          ∨ (r'.status = .pending ∨ r'.status = .playing)
            ∧ r'.lastError = some .ttsUnavailable)
    ∧ ∃ r ∈ (Run.run apply Db.init unspokenRun).playbacks,
      r.lastError = some .ttsUnavailable
      ∧ ∀ r' ∈ (apply (Run.run apply Db.init unspokenRun)
          (.releasePlayer "overlay" 5 1 (4 * second))).playbacks,
        r'.queueSequence = r.queueSequence →
        r'.status = .pending ∧ r'.lastError = none := by
  constructor
  · obtain ⟨r, hr, hstatus, herror⟩ :
        ∃ r ∈ (Run.run apply Db.init (unspokenRun.take 11)).playbacks.rows,
          r.status = .pending ∧ r.lastError = some .ttsUnavailable := by
      decide
    refine ⟨r, hr, herror, ?_⟩
    rw [Run.run_append]
    refine (speech_diagnostic_kept (unspokenRun.take 11) _).1 r hr hstatus
      herror ⟨?_, ?_, ?_, ?_, trivial⟩
    · rintro ⟨s, -, -, hreturns⟩
      exact hreturns
    · rintro ⟨s, -, -, hreturns⟩
      exact hreturns
    · -- nothing plays that the claim could hand back
      rintro ⟨s, hs, -, hreturns⟩
      have hidle : ∀ s ∈ (Run.run apply Db.init (unspokenRun.take 11
          ++ [.setPaused 1 true, .setPaused 1 false])).playbacks.rows,
          s.status ≠ .playing := by
        decide
      exact hidle s hs (playing_of_returns hreturns)
    · rintro ⟨s, -, -, hreturns⟩
      exact hreturns
  · obtain ⟨r, hr, hreturnable, hassigned, herror⟩ :
        ∃ r ∈ (Run.run apply Db.init unspokenRun).playbacks.rows,
          r.Returnable (4 * second) ∧ r.AssignedTo 1 5 1
            ∧ r.lastError = some .ttsUnavailable := by
      decide
    obtain ⟨player, hplayer⟩ : ∃ player, (Run.run apply Db.init
        unspokenRun).player? "overlay" 5 1 = some player
          ∧ player.userID = 1 := by
      refine ⟨_, rfl, ?_⟩
      decide
    refine ⟨r, hr, herror, (speech_diagnostic_kept unspokenRun []).2
      r.queueSequence _ ⟨r, hr, rfl, hreturnable, player, hplayer.1, ?_⟩⟩
    rw [hplayer.2]
    exact hassigned

/-- The playback waits without speech, is claimed with its diagnostic, and
waits again without one. -/
theorem diagnostic_cleared :
    ((Run.run apply Db.init (unspokenRun.take 8)).playback? 7).map
        (fun r => (r.status, r.lastError))
        = some (.pending, some .ttsUnavailable)
      ∧ ((Run.run apply Db.init unspokenRun).playback? 7).map
        (fun r => (r.status, r.lastError))
        = some (.playing, some .ttsUnavailable)
      ∧ ((Run.run apply Db.init (unspokenRun
          ++ [.releasePlayer "overlay" 5 1 (4 * second)])).playback? 7).map
        (fun r => (r.status, r.lastError)) = some (.pending, none) := by
  decide

end StreamBrew.Alert
