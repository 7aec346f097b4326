/-
Finishing once more.

An acknowledgement is one update of the one row with its id. No row that
is over meets the condition of a start. The condition of a finish it meets
for the outcome it has, if any, and then what is written is what is there:
its shape says that the columns that are kept have been set. So a row that
is over is the same after any acknowledgement, and the answer to a finish
tells whether the caller still holds the playback and means the same
outcome.
-/
import StreamBrew.Alert.Proofs.Calls

namespace StreamBrew.Alert

open Relational

variable {db : Db} {r : Playback}

/-- The status that a finish leaves a started playback in. -/
def FinishOutcome.status : FinishOutcome → PlaybackStatus
  | .completed => .completed
  | .interrupted => .interrupted

/-- A call that acknowledges the start or the end of a playback. -/
def Action.Acknowledges : Action → Prop
  | .startPlayback .. | .finishPlayback .. => True
  | _ => False

-- ========================== acknowledgements

section Acknowledge

variable {p : Playback → Prop} [DecidablePred p] {f : Playback → Playback}
  {hf : ∀ r, (f r).queueSequence = r.queueSequence}

/-- The answer to an acknowledgement: whether it met its row. -/
theorem acknowledge_fst (hi : Inv db) (hr : r ∈ db.playbacks)
    (hp : ∀ s, p s → s.playbackID = r.playbackID) :
    (acknowledge p f hf db).1
      = if p r then .ok () else .error .leaseLost := by
  have hone : db.playbacks.count p = 1 ↔ p r := by
    rw [Table.count_eq_one fun s hs t ht hps hpt =>
      hi.ids s hs t ht ((hp s hps).trans (hp t hpt).symm)]
    constructor
    · rintro ⟨s, hs, hps⟩
      rwa [← hi.ids s hs r hr (hp s hps)]
    · exact fun hpr => ⟨r, hr, hpr⟩
  unfold acknowledge
  simp only [hone]
  split
  case isTrue => rfl
  case isFalse => rfl

/-- What was accepted has met its row. -/
theorem acknowledge_met (hi : Inv db) (hr : r ∈ db.playbacks)
    (hp : ∀ s, p s → s.playbackID = r.playbackID)
    (hok : (acknowledge p f hf db).1 = .ok ()) :
    p r ∧ f r ∈ (acknowledge p f hf db).2.playbacks := by
  rw [acknowledge_fst hi hr hp] at hok
  split at hok
  case isFalse => cases hok
  case isTrue hmet =>
    refine ⟨hmet, ?_⟩
    rw [acknowledge_snd]
    show f r ∈ db.playbacks.update p f hf
    rw [Table.mem_update]
    exact ⟨r, hr, if_pos hmet⟩

/-- A row that is written as it is stays. -/
theorem mem_acknowledge_self (hr : r ∈ db.playbacks)
    (hself : p r → f r = r) : r ∈ (acknowledge p f hf db).2.playbacks := by
  rw [acknowledge_snd]
  show r ∈ db.playbacks.update p f hf
  rw [Table.mem_update]
  refine ⟨r, hr, ?_⟩
  split
  case isTrue hp => exact hself hp
  case isFalse => rfl

end Acknowledge

-- ================================== finishes

/-- The row that a finish means, and whether it is still there to be
finished so. -/
theorem finishPlayback_fst (hi : Inv db) (hr : r ∈ db.playbacks)
    (hstart : r.startedAt ≠ none) (hterminal : r.status.Terminal)
    (tokenHash : TokenHash) (playerID : PlayerID) (generation : Int)
    (outcome : FinishOutcome) (now : Time) :
    (finishPlayback tokenHash playerID generation r.playbackID outcome now
        db).1
      = if r.HeldBy tokenHash playerID generation r.playbackID now db
            ∧ r.status = outcome.status then .ok ()
        else .error .leaseLost := by
  have hplay : r.status ≠ .playing :=
    ((PlaybackStatus.terminal_iff _).mp hterminal).2
  unfold finishPlayback
  cases outcome with
  | completed =>
      refine (acknowledge_fst hi hr fun s hp => hp.1.1).trans ?_
      refine if_congr ?_ rfl rfl
      exact ⟨fun hp => ⟨hp.1, hp.2.2.resolve_left hplay⟩,
        fun hp => ⟨hp.1, hstart, Or.inr hp.2⟩⟩
  | interrupted =>
      refine (acknowledge_fst hi hr fun s hp => hp.1.1).trans ?_
      refine if_congr ?_ rfl rfl
      exact ⟨fun hp => ⟨hp.1, hp.2.resolve_left hplay⟩,
        fun hp => ⟨hp.1, Or.inr hp.2⟩⟩

/-- A finish that succeeds ends a started playback. -/
theorem finishPlayback_ends (hi : Inv db) (hr : r ∈ db.playbacks)
    (hstart : r.startedAt ≠ none) {tokenHash : TokenHash}
    {playerID : PlayerID} {generation : Int} {outcome : FinishOutcome}
    {now : Time}
    (hok : (finishPlayback tokenHash playerID generation r.playbackID
      outcome now db).1 = .ok ()) :
    ∃ r' ∈ (finishPlayback tokenHash playerID generation r.playbackID
        outcome now db).2.playbacks,
      r'.playbackID = r.playbackID ∧ r'.startedAt = r.startedAt
        ∧ r'.status = outcome.status := by
  unfold finishPlayback at hok ⊢
  cases outcome with
  | completed =>
      obtain ⟨-, hmem⟩ := acknowledge_met hi hr (fun s hp => hp.1.1) hok
      exact ⟨_, hmem, rfl, rfl, rfl⟩
  | interrupted =>
      obtain ⟨-, hmem⟩ := acknowledge_met hi hr (fun s hp => hp.1.1) hok
      refine ⟨_, hmem, rfl, rfl, ?_⟩
      unfold Playback.interrupt
      simp [hstart, FinishOutcome.status]

/-- A row that is over is left as it is by every acknowledgement. -/
theorem Action.Acknowledges.keeps {a : Action} (h : a.Acknowledges)
    (hi : Inv db) (hr : r ∈ db.playbacks) (hterminal : r.status.Terminal) :
    r ∈ (apply db a).playbacks := by
  have hshape := hi.shape r hr
  have hplay : r.status ≠ .playing :=
    ((PlaybackStatus.terminal_iff _).mp hterminal).2
  cases a with
  | startPlayback tokenHash playerID generation playbackID now =>
      exact mem_acknowledge_self hr fun hp => absurd hp.2 hplay
  | finishPlayback tokenHash playerID generation playbackID outcome now =>
      cases outcome with
      | completed =>
          exact mem_acknowledge_self hr fun hp =>
            r.complete_again now (hp.2.2.resolve_left hplay) hshape
      | interrupted =>
          exact mem_acknowledge_self hr fun hp =>
            r.interrupt_again now (hp.2.resolve_left hplay) hshape
  | _ => cases h

-- ==================================== result

/-- On every run: a finish that succeeds ends a started playback with its
outcome, and a playback that was started and is over stays as it is
through all acknowledgements. A finish of it succeeds just for the outcome
it has, and for the player it was started by, while the lease and the
token of that player hold. -/
theorem finishing_final (acts : List Action) :
    let db := Run.run apply Db.init acts
    ∀ r ∈ db.playbacks, r.startedAt ≠ none →
      (∀ tokenHash playerID generation outcome now,
        (finishPlayback tokenHash playerID generation r.playbackID outcome
            now db).1 = .ok () →
        ∃ r' ∈ (finishPlayback tokenHash playerID generation r.playbackID
            outcome now db).2.playbacks,
          r'.playbackID = r.playbackID ∧ r'.startedAt = r.startedAt
            ∧ r'.status = outcome.status)
      ∧ (r.status.Terminal →
        (∀ later, (∀ a ∈ later, a.Acknowledges) →
          r ∈ (Run.run apply db later).playbacks)
        ∧ ∀ tokenHash playerID generation outcome now,
          (finishPlayback tokenHash playerID generation r.playbackID
              outcome now db).1
            = if r.HeldBy tokenHash playerID generation r.playbackID now db
                  ∧ r.status = outcome.status then .ok ()
              else .error .leaseLost) := by
  intro db r hr hstart
  have hi : Inv db := Reachable.inv ⟨acts, rfl⟩
  refine ⟨fun tokenHash playerID generation outcome now hok =>
    finishPlayback_ends hi hr hstart hok, fun hterminal => ⟨?_, ?_⟩⟩
  · intro later hlater
    have hboth := Run.run_preserves_of_mem
      (P := fun db => Inv db ∧ r ∈ db.playbacks) (s := db) ⟨hi, hr⟩
      fun db a ha h => ⟨h.1.apply a, (hlater a ha).keeps h.1 h.2 hterminal⟩
    exact hboth.2
  · exact finishPlayback_fst hi hr hstart hterminal

/-- A player claims and starts a playback. -/
def startedRun : List Action :=
  [.setOverlayTokenHash 1 "overlay" 0, .openPlayer "overlay" 5 0,
    .heartbeat "overlay" 5 1 true true 0,
    .createTest 1 0 { playbackID := 7, gap := 0 },
    .claimPlayback "overlay" 5 1 0 [], .startPlayback "overlay" 5 1 7 0]

/-- Once it is completed, that playback stays as it is. -/
theorem finishing_final_completed :
    let db := Run.run apply Db.init (startedRun
      ++ [.finishPlayback "overlay" 5 1 7 .completed second])
    ∃ r ∈ db.playbacks, r.status = .completed
      ∧ ∀ later, (∀ a ∈ later, a.Acknowledges) →
        r ∈ (Run.run apply db later).playbacks := by
  intro db
  obtain ⟨r, hr, hstart, hstatus⟩ : ∃ r ∈ db.playbacks.rows,
      r.startedAt ≠ none ∧ r.status = .completed := by decide
  exact ⟨r, hr, hstatus,
    ((finishing_final _ r hr hstart).2 (Or.inl hstatus)).1⟩

/-- The same outcome again: within the lease it is accepted, after the
lease it is not. -/
theorem repeated_after_lease :
    (finishPlayback "overlay" 5 1 7 .completed second
        (Run.run apply Db.init startedRun)).1 = .ok ()
      ∧ (finishPlayback "overlay" 5 1 7 .completed (2 * second)
        (Run.run apply Db.init (startedRun
          ++ [.finishPlayback "overlay" 5 1 7 .completed second]))).1
        = .ok ()
      ∧ (finishPlayback "overlay" 5 1 7 .completed playerLease
        (Run.run apply Db.init (startedRun
          ++ [.finishPlayback "overlay" 5 1 7 .completed second]))).1
        = .error .leaseLost := by
  decide

end StreamBrew.Alert
