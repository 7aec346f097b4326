/-
At most one session has the lease, and only it acts on the key.

# Distinct revisions

The revisions that sessions have are given out by the bucket one by one,
so no two sessions ever have the same (`Distinct`). The last record of
the key has one revision, hence one session at most.

# Losing

A session whose revision is no longer the last of the key is out for
good (`Session.Out`, `out_step`): its next renewal fails, its release
finds another revision. The failure waits in `maintained` until the
forwarding goroutine receives it or has left its loop for another reason
(`Stopping`).
-/
import StreamBrew.Chat.Lease

namespace StreamBrew.Chat

open Revisions

variable {s : Leases} {entry entry' : Entry String} {a b c : Session}

-- ================================== one step

theorem Request.effect_eq_some {written : Option (Entry String)}
    {request : Request} (h : request.effect written = some entry) :
    written = some entry := by
  cases request with
  | failed => cases h
  | answered => exact h
  | unanswered => exact h

theorem Request.effect_none (request : Request) :
    request.effect none = none := by
  cases request <;> rfl

/-- What a session's step does to the key: nothing, or one write of the
session that has the last revision. -/
theorem entry_step (entry : Entry String) (action : SessionAction)
    (ha : 0 < a.revision) :
    ((a.step entry action).1 = entry
        ∧ (a.step entry action).2.revision = a.revision)
      ∨ (entry.last = a.revision
        ∧ ∃ value, (a.step entry action).1 = entry.put value
          ∧ ((a.step entry action).2.revision = a.revision
            ∨ (a.step entry action).2.revision = entry.revision + 1)) := by
  cases action with
  | renew request =>
      unfold Session.step
      simp only
      split
      case isFalse => exact Or.inl ⟨rfl, rfl⟩
      case isTrue =>
        split
        case h_1 => exact Or.inl ⟨rfl, rfl⟩
        case h_2 renewed heffect =>
          obtain ⟨hlast, rfl⟩ :=
            Entry.update_eq_some (Request.effect_eq_some heffect)
          right
          split
          case isTrue => exact ⟨hlast, _, rfl, Or.inr rfl⟩
          case isFalse => exact ⟨hlast, _, rfl, Or.inl rfl⟩
  | release request =>
      unfold Session.step
      simp only
      split
      case isFalse => exact Or.inl ⟨rfl, rfl⟩
      case isTrue =>
        cases heffect : request.effect (entry.delete a.revision) with
        | none => exact Or.inl ⟨rfl, rfl⟩
        | some deleted =>
            obtain ⟨hlast, rfl⟩ :=
              Entry.delete_eq_some (Request.effect_eq_some heffect) ha
            exact Or.inr ⟨hlast, _, rfl, Or.inl rfl⟩
  | endMaintenance =>
      left
      unfold Session.step
      simp only
      split <;> exact ⟨rfl, rfl⟩
  | receiveMaintained =>
      left
      unfold Session.step
      simp only
      split <;> exact ⟨rfl, rfl⟩
  | stopCollecting =>
      left
      unfold Session.step
      simp only
      split <;> exact ⟨rfl, rfl⟩
  | cancel =>
      left
      unfold Session.step
      simp only
      split <;> exact ⟨rfl, rfl⟩
  | awaitMaintained =>
      left
      unfold Session.step
      simp only
      split <;> exact ⟨rfl, rfl⟩
  | endContext => exact Or.inl ⟨rfl, rfl⟩

/-- A session is where it was, or the one that made the step, or new. -/
theorem session_cases {i : Nat} (action : LeaseAction)
    (h : (s.step action).sessions[i]? = some b) :
    (s.sessions[i]? = some b ∧ ∀ act, action ≠ .session i act)
      ∨ (∃ act a, action = .session i act ∧ s.sessions[i]? = some a
        ∧ (s.step action).entry = (a.step s.entry act).1
        ∧ b = (a.step s.entry act).2)
      ∨ (∃ owner, action = .acquire owner .answered ∧ i = s.sessions.length
        ∧ (s.step action).entry = s.entry.put (some owner)
        ∧ b.revision = s.entry.revision + 1) := by
  cases action with
  | expire => exact Or.inl ⟨h, fun _ he => by cases he⟩
  | elsewhere => exact Or.inl ⟨h, fun _ he => by cases he⟩
  | acquire owner request =>
      unfold Leases.step at h ⊢
      simp only at h ⊢
      split at h
      case h_1 => exact Or.inl ⟨h, fun _ he => by cases he⟩
      case h_2 created heffect =>
        have hput := Entry.create_eq_some (Request.effect_eq_some heffect)
        split at h
        case isFalse => exact Or.inl ⟨h, fun _ he => by cases he⟩
        case isTrue hanswered =>
          subst hanswered
          rcases Nat.lt_trichotomy i s.sessions.length with hlt | rfl | hgt
          · rw [List.getElem?_append_left hlt] at h
            exact Or.inl ⟨h, fun _ he => by cases he⟩
          · rw [List.getElem?_concat_length] at h
            cases h
            refine Or.inr (Or.inr ⟨owner, rfl, rfl, ?_, ?_⟩)
            · exact hput
            · rw [hput]
              rfl
          · rw [List.getElem?_eq_none (by
              rw [List.length_append]
              exact hgt)] at h
            cases h
  | session sessionID act =>
      unfold Leases.step at h ⊢
      simp only at h ⊢
      cases hsession : s.sessions[sessionID]? with
      | none =>
          rw [hsession] at h
          refine Or.inl ⟨h, fun act' he => ?_⟩
          cases he
          rw [hsession] at h
          cases h
      | some a =>
          rw [hsession] at h
          simp only at h ⊢
          rw [List.getElem?_set] at h
          split at h
          case isTrue heq =>
            subst heq
            split at h
            case isTrue =>
              cases h
              exact Or.inr (Or.inl ⟨act, a, rfl, hsession, rfl, rfl⟩)
            case isFalse => cases h
          case isFalse hne =>
            refine Or.inl ⟨h, fun act' he => ?_⟩
            cases he
            exact hne rfl

/-- What any step does to the key. -/
theorem entry_cases (action : LeaseAction)
    (hpositive : ∀ a ∈ s.sessions, 0 < a.revision) :
    (s.step action).entry = s.entry
      ∨ (s.step action).entry = s.entry.expire
      ∨ (s.step action).entry = s.entry.elsewhere
      ∨ ∃ value, (s.step action).entry = s.entry.put value := by
  cases action with
  | expire => exact Or.inr (Or.inl rfl)
  | elsewhere => exact Or.inr (Or.inr (Or.inl rfl))
  | acquire owner request =>
      unfold Leases.step
      simp only
      split
      case h_1 => exact Or.inl rfl
      case h_2 created heffect =>
        have hput := Entry.create_eq_some (Request.effect_eq_some heffect)
        refine Or.inr (Or.inr (Or.inr ⟨some owner, ?_⟩))
        split <;> exact hput
  | session sessionID act =>
      unfold Leases.step
      simp only
      split
      case h_1 => exact Or.inl rfl
      case h_2 a hsession =>
        have hmem := List.mem_of_getElem? hsession
        rcases entry_step s.entry act (hpositive a hmem) with
          ⟨hsame, -⟩ | ⟨-, value, hput, -⟩
        · exact Or.inl hsame
        · exact Or.inr (Or.inr (Or.inr ⟨value, hput⟩))

theorem revision_grows (action : LeaseAction)
    (hpositive : ∀ a ∈ s.sessions, 0 < a.revision) :
    s.entry.revision ≤ (s.step action).entry.revision := by
  rcases entry_cases action hpositive with he | he | he | ⟨value, he⟩
  · exact Nat.le_of_eq (congrArg Entry.revision he).symm
  · exact Nat.le_of_eq (congrArg Entry.revision he).symm
  · rw [he]
    exact Nat.le_succ _
  · rw [he]
    exact Nat.le_succ _

-- ================================= invariant

/-- Every session has a revision of its own that the bucket gave out. -/
structure Distinct (s : Leases) : Prop where
  given : ∀ a ∈ s.sessions,
    0 < a.revision ∧ a.revision ≤ s.entry.revision
  unique : ∀ (i j : Nat) (a b : Session), s.sessions[i]? = some a →
    s.sessions[j]? = some b → a.revision = b.revision → i = j

theorem Distinct.positive (h : Distinct s) :
    ∀ a ∈ s.sessions, 0 < a.revision := fun a ha => (h.given a ha).1

/-- After a step, a session has the revision it had or a new one, and
then the key has that one as its last. -/
theorem revision_step (h : Distinct s) {i : Nat} (action : LeaseAction)
    (hb : (s.step action).sessions[i]? = some b) :
    (∃ a, s.sessions[i]? = some a ∧ b.revision = a.revision)
      ∨ (b.revision = s.entry.revision + 1
        ∧ (s.step action).entry.revision = s.entry.revision + 1
        ∧ ((∃ owner, action = .acquire owner .answered
            ∧ i = s.sessions.length) ∨ ∃ act, action = .session i act)) := by
  rcases session_cases action hb with ⟨hsame, -⟩ |
    ⟨act, a, hact, ha, hentry, rfl⟩ | ⟨owner, hact, hi, hentry, hrevision⟩
  · exact Or.inl ⟨b, hsame, rfl⟩
  · have hpositive := h.positive a (List.mem_of_getElem? ha)
    rcases entry_step s.entry act hpositive with
      ⟨-, hkept⟩ | ⟨-, value, hput, hkept | hnew⟩
    · exact Or.inl ⟨a, ha, hkept⟩
    · exact Or.inl ⟨a, ha, hkept⟩
    · refine Or.inr ⟨hnew, ?_, Or.inr ⟨act, hact⟩⟩
      rw [hentry, hput]
      rfl
  · refine Or.inr ⟨hrevision, ?_, Or.inl ⟨owner, hact, hi⟩⟩
    rw [hentry]
    rfl

/-- Revisions stay distinct. -/
theorem Distinct.step (h : Distinct s) (action : LeaseAction) :
    Distinct (s.step action) where
  given := by
    intro b hmem
    obtain ⟨i, hb⟩ := List.mem_iff_getElem?.mp hmem
    rcases revision_step h action hb with ⟨a, ha, hrevision⟩ |
      ⟨hrevision, hentry, -⟩
    · obtain ⟨hpos, hle⟩ := h.given a (List.mem_of_getElem? ha)
      rw [hrevision]
      exact ⟨hpos, Nat.le_trans hle (revision_grows action h.positive)⟩
    · rw [hrevision, hentry]
      exact ⟨Nat.succ_pos _, Nat.le_refl _⟩
  unique := by
    intro i j a b ha hb heq
    rcases revision_step h action ha with ⟨a₀, ha₀, hra⟩ | ⟨hra, -, hi⟩
    · rcases revision_step h action hb with ⟨b₀, hb₀, hrb⟩ | ⟨hrb, -, -⟩
      · exact h.unique i j a₀ b₀ ha₀ hb₀ (hra.symm.trans (heq.trans hrb))
      · have hle := (h.given a₀ (List.mem_of_getElem? ha₀)).2
        rw [← hra, heq, hrb] at hle
        exact absurd hle (Nat.not_succ_le_self _)
    · rcases revision_step h action hb with ⟨b₀, hb₀, hrb⟩ | ⟨hrb, -, hj⟩
      · have hle := (h.given b₀ (List.mem_of_getElem? hb₀)).2
        rw [← hrb, ← heq, hra] at hle
        exact absurd hle (Nat.not_succ_le_self _)
      · -- one step gives out at most one revision
        rcases hi with ⟨owner, rfl, rfl⟩ | ⟨act, rfl⟩
        · rcases hj with ⟨_, -, rfl⟩ | ⟨_, he⟩
          · rfl
          · cases he
        · rcases hj with ⟨_, he, -⟩ | ⟨_, he⟩
          · cases he
          · cases he
            rfl

/-- The lease after a run. -/
abbrev leasesTo (acts : List LeaseAction) : Leases :=
  Run.run Leases.step Leases.init acts

theorem distinct (acts : List LeaseAction) : Distinct (leasesTo acts) := by
  refine Run.run_preserves ?_ (fun s action h => h.step action) acts
  refine ⟨fun a ha => absurd ha List.not_mem_nil, fun i j a b ha => ?_⟩
  cases ha

-- =================================== holding

/-- The session has the revision of the key's last record. -/
def Session.Holds (entry : Entry String) (a : Session) : Prop :=
  entry.last = a.revision

/-- A session stays where it is, however others step. -/
theorem session_step {i : Nat} (action : LeaseAction)
    (ha : s.sessions[i]? = some a) :
    ∃ b, (s.step action).sessions[i]? = some b
      ∧ (b = a ∨ ∃ act, action = .session i act
        ∧ b = (a.step s.entry act).2) := by
  have hlt := (List.getElem?_eq_some_iff.mp ha).1
  cases action with
  | expire => exact ⟨a, ha, Or.inl rfl⟩
  | elsewhere => exact ⟨a, ha, Or.inl rfl⟩
  | acquire owner request =>
      unfold Leases.step
      simp only
      split
      case h_1 => exact ⟨a, ha, Or.inl rfl⟩
      case h_2 =>
        split
        case isTrue =>
          exact ⟨a, (List.getElem?_append_left hlt).trans ha, Or.inl rfl⟩
        case isFalse => exact ⟨a, ha, Or.inl rfl⟩
  | session j act =>
      unfold Leases.step
      simp only
      by_cases hj : j = i
      · subst hj
        rw [ha]
        exact ⟨_, List.getElem?_set_self hlt, Or.inr ⟨act, rfl, rfl⟩⟩
      · split
        case h_1 => exact ⟨a, ha, Or.inl rfl⟩
        case h_2 =>
          exact ⟨a, (List.getElem?_set_ne hj).trans ha, Or.inl rfl⟩

/-- Without the revision a session leaves the key alone. -/
theorem entry_step_out (ha : 0 < a.revision) (hout : ¬ a.Holds entry)
    (act : SessionAction) : (a.step entry act).1 = entry
      ∧ (a.step entry act).2.revision = a.revision := by
  rcases entry_step entry act ha with hsame | ⟨hlast, -⟩
  · exact hsame
  · exact absurd hlast hout

theorem entry_out (h : Distinct s) {i : Nat}
    (ha : s.sessions[i]? = some a) (hout : ¬ a.Holds s.entry)
    (act : SessionAction) : (s.step (.session i act)).entry = s.entry := by
  have hpositive := h.positive a (List.mem_of_getElem? ha)
  unfold Leases.step
  simp only [ha]
  exact (entry_step_out hpositive hout act).1

/-- The lease of a session is lost. -/
def LostAt (i : Nat) (s : Leases) : Prop :=
  Distinct s ∧ ∃ a, s.sessions[i]? = some a ∧ ¬ a.Holds s.entry

/-- A lost lease stays lost. -/
theorem LostAt.step {i : Nat} (h : LostAt i s) (action : LeaseAction) :
    LostAt i (s.step action) := by
  obtain ⟨hdistinct, a, ha, hout⟩ := h
  obtain ⟨hpositive, hgiven⟩ := hdistinct.given a (List.mem_of_getElem? ha)
  obtain ⟨b, hb, hcases⟩ := session_step action ha
  have hrevision : b.revision = a.revision := by
    rcases hcases with rfl | ⟨act, -, rfl⟩
    · rfl
    · exact (entry_step_out hpositive hout act).2
  have hstale : s.entry.Stale a.revision := ⟨hgiven, hout⟩
  refine ⟨hdistinct.step action, b, hb, ?_⟩
  unfold Session.Holds
  rw [hrevision]
  rcases entry_cases action hdistinct.positive with
    he | he | he | ⟨value, he⟩
  · rw [he]
    exact hout
  · rw [he]
    exact (hstale.expire hpositive).last
  · rw [he]
    exact hstale.elsewhere.last
  · rw [he]
    exact (hstale.put value).last

/-- A renewal of a lost lease fails. -/
theorem renew_out (hout : ¬ a.Holds entry) (hrunning : a.maintaining = true)
    (request : Request) :
    a.step entry (.renew request) = (entry, a.lose) := by
  have hupdate : entry.update a.owner a.revision = none := if_neg hout
  have heffect := request.effect_none
  unfold Session.step
  simp only [hrunning, hupdate, heffect, if_true]

-- ================================== stopping

/-- What a step does to the session itself. -/
inductive Session.Moves (a : Session) : Session → Prop
  | stay : Moves a a
  | renewed (revision) : a.maintaining = true → Moves a { a with revision }
  | lost : a.maintaining = true → Moves a a.lose
  | kept : a.maintaining = true →
      Moves a { a with maintaining := false, maintained := some .kept }
  | received : a.stage = .forwarding →
      Moves a { a with maintained := none, maintenanceFinished := true
                       collecting := false }
  | stopped : a.stage = .forwarding → Moves a { a with collecting := false }
  | cancelled :
      Moves a { a with cancelled := true, stage := .waiting }
  | awaited : a.stage = .waiting →
      Moves a { a with maintained := none, stage := .releasing }
  | released : a.stage = .releasing → Moves a { a with stage := .released }
  | contextDone : Moves a { a with contextDone := true }

/-- Every step is one of these moves. -/
theorem moves_step (entry : Entry String) (a : Session)
    (act : SessionAction) : a.Moves (a.step entry act).2 := by
  cases act with
  | renew request =>
      unfold Session.step
      simp only
      split
      case isFalse => exact .stay
      case isTrue hrunning =>
        split
        case h_1 => exact .lost hrunning
        case h_2 =>
          split
          case isTrue => exact .renewed _ hrunning
          case isFalse => exact .lost hrunning
  | endMaintenance =>
      unfold Session.step
      simp only
      split
      case isTrue hguard =>
        rw [Bool.and_eq_true] at hguard
        exact .kept hguard.1
      case isFalse => exact .stay
  | receiveMaintained =>
      unfold Session.step
      simp only
      split
      case isTrue hguard => exact .received hguard.1
      case isFalse => exact .stay
  | stopCollecting =>
      unfold Session.step
      simp only
      split
      case isTrue hstage => exact .stopped hstage
      case isFalse => exact .stay
  | cancel =>
      unfold Session.step
      simp only
      split
      case isTrue => exact .cancelled
      case isFalse => exact .stay
  | awaitMaintained =>
      unfold Session.step
      simp only
      split
      case isTrue hguard => exact .awaited hguard.1
      case isFalse => exact .stay
  | release request =>
      unfold Session.step
      simp only
      split
      case isTrue hstage => exact .released hstage
      case isFalse => exact .stay
  | endContext => exact .contextDone

/-- The goroutine that forwards is in its loop until cancel(). -/
def Session.Orderly (a : Session) : Prop :=
  a.stage ≠ .forwarding → a.cancelled = true

theorem Session.Moves.orderly (h : a.Moves b) (ha : a.Orderly) :
    b.Orderly := by
  cases h with
  | cancelled => exact fun _ => rfl
  | awaited hstage =>
      have hcancelled := ha (by rw [hstage]; exact fun he => by cases he)
      exact fun _ => hcancelled
  | released hstage =>
      have hcancelled := ha (by rw [hstage]; exact fun he => by cases he)
      exact fun _ => hcancelled
  | _ => exact ha

/-- The provider's stream is stopped once and for all. -/
theorem Session.Moves.streaming (h : a.Moves b)
    (ha : a.streaming = false) : b.streaming = false := by
  unfold Session.streaming Session.collectionDone at ha ⊢
  cases h with
  | cancelled => simp
  | contextDone => simp
  | _ => exact ha

theorem Session.Moves.collecting (h : a.Moves b)
    (ha : a.collecting = false) : b.collecting = false := by
  cases h with
  | received => rfl
  | stopped => rfl
  | _ => exact ha

theorem Session.Moves.maintaining (h : a.Moves b)
    (ha : a.maintaining = false) : b.maintaining = false := by
  cases h with
  | lost => rfl
  | kept => rfl
  | _ => exact ha

/-- How far a session has come whose renewal failed: the failure is yet
to be received, the loop is about to end, or the provider's stream has
been stopped. -/
inductive Progress
  | failed
  | leaving
  | stopped

/-- What has been reached at each place of the progress. -/
def Progress.Reached : Progress → Session → Prop
  | failed, a => a.maintained = some .lost ∨ a.collecting = false
      ∨ a.streaming = false
  | leaving, a => a.collecting = false ∨ a.streaming = false
  | stopped, a => a.streaming = false

/-- Maintain has returned, and the session has come so far. -/
structure Session.Failed (progress : Progress) (a : Session) : Prop where
  orderly : a.Orderly
  maintaining : a.maintaining = false
  reached : progress.Reached a

/-- No step takes a session back. -/
theorem Session.Failed.moves {progress : Progress} (h : a.Failed progress)
    (hmoves : a.Moves b) : b.Failed progress where
  orderly := hmoves.orderly h.orderly
  maintaining := hmoves.maintaining h.maintaining
  reached := by
    have hreached := h.reached
    cases progress with
    | stopped => exact hmoves.streaming hreached
    | leaving => exact hreached.imp hmoves.collecting hmoves.streaming
    | failed =>
        rcases hreached with hlost | hrest
        · have hreturned : a.maintaining ≠ true := by
            rw [h.maintaining]
            exact Bool.false_ne_true
          cases hmoves with
          | lost hrunning => exact absurd hrunning hreturned
          | kept hrunning => exact absurd hrunning hreturned
          | received => exact Or.inr (Or.inl rfl)
          | awaited hstage =>
              have hcancelled := h.orderly
                (by rw [hstage]; exact fun he => by cases he)
              refine Or.inr (Or.inr ?_)
              unfold Session.streaming Session.collectionDone
              simp [hcancelled]
          | _ => exact Or.inl hlost
        · exact Or.inr (hrest.imp hmoves.collecting hmoves.streaming)

/-- A session behind its loop has stopped the stream. -/
theorem Session.Orderly.streaming (h : a.Orderly)
    (hstage : a.stage ≠ .forwarding) : a.streaming = false := by
  unfold Session.streaming Session.collectionDone
  simp [h hstage]

/-- Receiving the failure ends the loop. -/
theorem Session.Failed.receive (h : a.Failed .failed) :
    (a.step entry .receiveMaintained).2.Failed .leaving := by
  have hkept := h.moves (moves_step entry a .receiveMaintained)
  refine ⟨hkept.orderly, hkept.maintaining, ?_⟩
  rcases h.reached with hlost | hrest
  · by_cases hstage : a.stage = .forwarding
    · by_cases hcollecting : a.collecting = true
      · unfold Session.step
        simp only [hstage, hcollecting, hlost, Option.isSome_some, and_self,
          if_true]
        exact Or.inl rfl
      · exact Or.inl ((moves_step entry a .receiveMaintained).collecting
          (Bool.eq_false_iff.mpr hcollecting))
    · exact Or.inr ((moves_step entry a .receiveMaintained).streaming
        (h.orderly.streaming hstage))
  · have hleaving : a.Failed .leaving := ⟨h.orderly, h.maintaining, hrest⟩
    exact (hleaving.moves (moves_step entry a .receiveMaintained)).reached

/-- The end of the loop stops the stream. -/
theorem Session.Failed.cancel (h : a.Failed .leaving) :
    (a.step entry .cancel).2.Failed .stopped := by
  have hmoves := moves_step entry a .cancel
  refine ⟨hmoves.orderly h.orderly, hmoves.maintaining h.maintaining, ?_⟩
  rcases h.reached with hcollecting | hstopped
  · by_cases hstage : a.stage = .forwarding
    · unfold Session.step
      simp only [hstage, hcollecting, Bool.not_false, Bool.true_or, and_self,
        if_true]
      unfold Progress.Reached Session.streaming Session.collectionDone
      simp
    · exact hmoves.streaming (h.orderly.streaming hstage)
  · exact hmoves.streaming hstopped

/-- A session at a place of the list, by how far it has come. -/
def FailedAt (progress : Progress) (i : Nat) (s : Leases) : Prop :=
  ∃ a, s.sessions[i]? = some a ∧ a.Failed progress

theorem FailedAt.step {progress : Progress} {i : Nat}
    (h : FailedAt progress i s) (action : LeaseAction) :
    FailedAt progress i (s.step action) := by
  obtain ⟨a, ha, hfailed⟩ := h
  obtain ⟨b, hb, hcases⟩ := session_step action ha
  refine ⟨b, hb, ?_⟩
  rcases hcases with rfl | ⟨act, -, rfl⟩
  · exact hfailed
  · exact hfailed.moves (moves_step s.entry a act)

/-- What a session does itself. -/
theorem session_own {i : Nat} (ha : s.sessions[i]? = some a)
    (act : SessionAction) :
    (s.step (.session i act)).sessions[i]?
      = some (a.step s.entry act).2 := by
  have hlt := (List.getElem?_eq_some_iff.mp ha).1
  unfold Leases.step
  simp only [ha]
  exact List.getElem?_set_self hlt

/-- A failed renewal stops the provider's stream, as soon as the loop
has received it and gone on to cancel(). -/
theorem FailedAt.stops {i : Nat} (h : FailedAt .failed i s)
    {more : List LeaseAction}
    (hmore : List.Sublist
      [.session i .receiveMaintained, .session i .cancel] more) :
    FailedAt .stopped i (Run.run Leases.step s more) := by
  obtain ⟨before, after, rfl, hreceive, hrest⟩ :=
    List.cons_sublist_iff.mp hmore
  have hcancel := List.singleton_sublist.mp hrest
  have hleaving : FailedAt .leaving i (Run.run Leases.step s before) := by
    refine Run.run_reaches h (fun s b h => h.step b) ?_
      (fun s b h => h.step b) hreceive
    rintro s ⟨a, ha, hfailed⟩
    exact ⟨_, session_own ha _, hfailed.receive⟩
  rw [Run.run_append]
  refine Run.run_reaches hleaving (fun s b h => h.step b) ?_
    (fun s b h => h.step b) hcancel
  rintro s ⟨a, ha, hfailed⟩
  exact ⟨_, session_own ha _, hfailed.cancel⟩

/-- Every session is in its loop until cancel(). -/
def AllOrderly (s : Leases) : Prop := ∀ a ∈ s.sessions, a.Orderly

/-- No step leaves the order. -/
theorem AllOrderly.step (h : AllOrderly s) (action : LeaseAction) :
    AllOrderly (s.step action) := by
  intro b hmem
  obtain ⟨i, hb⟩ := List.mem_iff_getElem?.mp hmem
  rcases session_cases action hb with ⟨hsame, -⟩ |
    ⟨act, a, -, ha, -, rfl⟩ | ⟨owner, hact, rfl, -, -⟩
  · exact h b (List.mem_of_getElem? hsame)
  · exact (moves_step s.entry a act).orderly
      (h a (List.mem_of_getElem? ha))
  · subst hact
    unfold Leases.step at hb
    simp only at hb
    split at hb
    case h_1 =>
      exact absurd (List.getElem?_eq_some_iff.mp hb).1 (Nat.lt_irrefl _)
    case h_2 =>
      rw [if_pos trivial, List.getElem?_concat_length] at hb
      cases hb
      exact fun hstage => absurd rfl hstage

theorem orderly (acts : List LeaseAction) : AllOrderly (leasesTo acts) :=
  Run.run_preserves (fun _ ha => absurd ha List.not_mem_nil)
    (fun _ action h => h.step action) acts

-- ==================================== leases

/-- The lease of a source on every run: one session at most has the
revision of the last record, and only that session can write the key. A
session that has lost it fails its next renewal, and then its stream
stops, while its release changes nothing. -/
theorem lease_exclusive (acts : List LeaseAction) :
    (∀ (i j : Nat) (a b : Session),
      (leasesTo acts).sessions[i]? = some a →
      (leasesTo acts).sessions[j]? = some b →
      a.Holds (leasesTo acts).entry → b.Holds (leasesTo acts).entry → i = j)
    ∧ (∀ (i : Nat) (a : Session),
      (leasesTo acts).sessions[i]? = some a →
      ¬ a.Holds (leasesTo acts).entry →
      ∀ act, ((leasesTo acts).step (.session i act)).entry
        = (leasesTo acts).entry)
    ∧ ∀ (i : Nat) (a : Session),
      (leasesTo acts).sessions[i]? = some a →
      ¬ a.Holds (leasesTo acts).entry →
      ∀ more, ∃ b, (leasesTo (acts ++ more)).sessions[i]? = some b
        ∧ ¬ b.Holds (leasesTo (acts ++ more)).entry
        ∧ (b.maintaining = true → ∀ request,
          ((leasesTo (acts ++ more)).step
            (.session i (.renew request))).sessions[i]? = some b.lose
          ∧ ∀ rest, List.Sublist
            [.session i .receiveMaintained, .session i .cancel] rest →
          ∃ c, (leasesTo (acts ++ more ++ .session i (.renew request)
              :: rest)).sessions[i]? = some c
            ∧ c.maintaining = false ∧ c.streaming = false) := by
  refine ⟨?_, ?_, ?_⟩
  · intro i j a b ha hb hholds hholds'
    exact (distinct acts).unique i j a b ha hb
      (hholds.symm.trans hholds')
  · exact fun i a ha hout act => entry_out (distinct acts) ha hout act
  · intro i a ha hout more
    have hlost : LostAt i (leasesTo (acts ++ more)) := by
      unfold leasesTo
      rw [Run.run_append]
      exact Run.run_preserves ⟨distinct acts, a, ha, hout⟩
        (fun s action h => h.step action) more
    obtain ⟨-, b, hb, hbout⟩ := hlost
    refine ⟨b, hb, hbout, fun hrunning request => ?_⟩
    have hlose := session_own hb (.renew request)
    rw [renew_out hbout hrunning] at hlose
    refine ⟨hlose, fun rest hrest => ?_⟩
    have hfailed : FailedAt .failed i
        ((leasesTo (acts ++ more)).step (.session i (.renew request))) :=
      ⟨_, hlose, orderly _ b (List.mem_of_getElem? hb), rfl, Or.inl rfl⟩
    obtain ⟨c, hc, hstopped⟩ := hfailed.stops hrest
    refine ⟨c, ?_, hstopped.maintaining, hstopped.reached⟩
    unfold leasesTo at hc ⊢
    rw [Run.run_append, Run.run_cons]
    exact hc

end StreamBrew.Chat
