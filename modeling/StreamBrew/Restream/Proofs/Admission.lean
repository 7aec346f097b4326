/-
One authorization a path.

`pending` counts: for every path, the handlers between the two critical
sections of authorize are as many as `pending` says, one or none. While
one of them has not stored its session the path has no entry, so the
entry it stores replaces none.
-/
import StreamBrew.Restream.Proofs.Turns

namespace StreamBrew.Restream

open Relational

variable {s s' : Controller} {h : Handler} {reply : Reply}
  {action : Action}

-- ================================= admission

/-- The path is pending for this handler. -/
def Handler.Pends (path : String) (h : Handler) : Prop :=
  h.stage.pends = true ∧ h.path = path

instance (path : String) : DecidablePred (Handler.Pends path) :=
  fun _ => inferInstanceAs (Decidable (_ ∧ _))

/-- A path that is being authorized has one handler and no session. -/
structure Controller.Admission (s : Controller) : Prop where
  fresh : ∀ h ∈ s.handlers, h.id < s.requests
  pending : ∀ path, s.handlers.count (Handler.Pends path)
    = if path ∈ s.pending then 1 else 0
  vacant : ∀ h ∈ s.handlers, h.stage.unstored = true →
    s.sessions.get? h.path = none

namespace Controller.Admission

/-- A path is pending for one handler at most. -/
theorem unique (hs : s.Admission) {h h' : Handler} (hh : h ∈ s.handlers)
    (hh' : h' ∈ s.handlers) (hpends : h.stage.pends = true)
    (hpends' : h'.stage.pends = true) (hpath : h'.path = h.path) :
    h' = h := by
  refine Table.eq_of_count_le_one (p := Handler.Pends h.path) ?_ hh' hh
    ⟨hpends', hpath⟩ ⟨hpends, rfl⟩
  rw [hs.pending]
  split
  case isTrue => exact Nat.le_refl 1
  case isFalse => exact Nat.zero_le 1

/-- A handler goes on without entering or leaving `pending`. -/
theorem moves (hs : s.Admission) (hh : h ∈ s.handlers) {stage : Stage}
    (hpends : stage.pends = h.stage.pends)
    (hunstored : stage.unstored = true → h.stage.unstored = true)
    (hhandlers : s'.handlers = s.handlers.put { h with stage })
    (hpending : s'.pending = s.pending)
    (hrequests : s'.requests = s.requests)
    (hsessions : ∀ path, s.sessions.get? path = none →
      s'.sessions.get? path = none) : s'.Admission where
  fresh h' hh' := by
    rw [hhandlers] at hh'
    rw [hrequests]
    rcases Table.mem_put.mp hh' with rfl | ⟨hh', -⟩
    · exact hs.fresh h hh
    · exact hs.fresh h' hh'
  pending path := by
    have hcount := Table.count_replace (p := Handler.Pends path)
      (b := { h with stage }) hh rfl
    have hsame : Handler.Pends path { h with stage }
        ↔ Handler.Pends path h := by
      unfold Handler.Pends
      rw [hpends]
    rw [if_congr hsame rfl rfl] at hcount
    rw [hhandlers, hpending, ← hs.pending path]
    omega
  vacant h' hh' hu := by
    rw [hhandlers] at hh'
    rcases Table.mem_put.mp hh' with rfl | ⟨hh', -⟩
    · exact hsessions h.path (hs.vacant h hh (hunstored hu))
    · exact hsessions h'.path (hs.vacant h' hh' hu)

/-- A handler that has left `pending`, or was never in it, returns. -/
theorem returns (hs : s.Admission) (hh : h ∈ s.handlers)
    (hpends : h.stage.pends = false)
    (hhandlers : s'.handlers = s.handlers.erase h.id)
    (hpending : s'.pending = s.pending)
    (hrequests : s'.requests = s.requests)
    (hsessions : s'.sessions = s.sessions) : s'.Admission where
  fresh h' hh' := by
    rw [hhandlers] at hh'
    rw [hrequests]
    exact hs.fresh h' (Table.mem_erase.mp hh').1
  pending path := by
    have hcount := Table.count_erase (p := Handler.Pends path) hh
    have hnot : ¬ Handler.Pends path h := by
      rintro ⟨hp, -⟩
      rw [hpends] at hp
      cases hp
    rw [if_neg hnot] at hcount
    rw [hhandlers, hpending, ← hs.pending path]
    omega
  vacant h' hh' hu := by
    rw [hhandlers] at hh'
    rw [hsessions]
    exact hs.vacant h' (Table.mem_erase.mp hh').1 hu

/-- A path that was not pending is, for the handler that found it so. -/
theorem admitted (hs : s.Admission) (hh : h ∈ s.handlers)
    {publisherID : String} (hstage : h.stage = .enter publisherID)
    (hvacant : s.sessions.get? h.path = none)
    (hpending : h.path ∉ s.pending) :
    Controller.Admission
      ({ s with pending := insert h.path s.pending }.goTo h
        (.authorize publisherID)) where
  fresh h' hh' := by
    rcases Table.mem_put.mp hh' with rfl | ⟨hh', -⟩
    · exact hs.fresh h hh
    · exact hs.fresh h' hh'
  pending path := by
    have hcount := Table.count_replace (p := Handler.Pends path)
      (b := { h with stage := .authorize publisherID }) hh rfl
    have hnot : ¬ Handler.Pends path h := by
      rintro ⟨hp, -⟩
      rw [hstage] at hp
      cases hp
    have hnow : Handler.Pends path
        { h with stage := .authorize publisherID } ↔ h.path = path :=
      and_iff_right rfl
    rw [if_neg hnot, if_congr hnow rfl rfl, hs.pending path] at hcount
    show (s.handlers.put { h with stage := .authorize publisherID }).count
      (Handler.Pends path) = if path ∈ insert h.path s.pending then 1 else 0
    by_cases he : h.path = path
    · subst he
      rw [if_neg hpending, if_pos rfl] at hcount
      rw [if_pos (Finset.mem_insert_self _ _)]
      omega
    · have hmem : path ∈ insert h.path s.pending ↔ path ∈ s.pending := by
        rw [Finset.mem_insert]
        exact or_iff_right fun hp => he hp.symm
      rw [if_neg he] at hcount
      rw [if_congr hmem rfl rfl]
      omega
  vacant h' hh' hu := by
    rcases Table.mem_put.mp hh' with rfl | ⟨hh', -⟩
    · exact hvacant
    · exact hs.vacant h' hh' hu

/-- The entry of a path that is pending for this handler alone. -/
theorem stored (hs : s.Admission) (hh : h ∈ s.handlers)
    {a : Authorization} (hstage : h.stage = .store a) :
    Controller.Admission
      ({ s with
        sessions := s.sessions.put
          { path := h.path, authorization := a } }.goTo h (.unpend 204)) where
  fresh h' hh' := by
    rcases Table.mem_put.mp hh' with rfl | ⟨hh', -⟩
    · exact hs.fresh h hh
    · exact hs.fresh h' hh'
  pending path := by
    have hcount := Table.count_replace (p := Handler.Pends path)
      (b := { h with stage := .unpend 204 }) hh rfl
    have hsame : Handler.Pends path { h with stage := .unpend 204 }
        ↔ Handler.Pends path h := by
      unfold Handler.Pends
      rw [hstage]
      rfl
    rw [if_congr hsame rfl rfl, hs.pending path] at hcount
    show (s.handlers.put _).count _ = if path ∈ s.pending then 1 else 0
    omega
  vacant h' hh' hu := by
    show (s.sessions.put _).get? h'.path = none
    rw [Table.get?_put]
    rcases Table.mem_put.mp hh' with rfl | ⟨hh', hne⟩
    · cases hu
    · have hpends : h.stage.pends = true := by rw [hstage]; rfl
      have hother : h'.path ≠ h.path := by
        intro he
        have hsame : h' = h :=
          hs.unique hh hh' hpends (Stage.pends_of_unstored hu) he
        exact hne (by rw [hsame])
      rw [if_neg hother]
      exact hs.vacant h' hh' hu

/-- The path is free again. -/
theorem unpended (hs : s.Admission) (hh : h ∈ s.handlers) {status : Nat}
    (hstage : h.stage = .unpend status) :
    Controller.Admission
      ({ s with pending := s.pending.erase h.path }.respond h status) where
  fresh h' hh' := hs.fresh h' (Table.mem_erase.mp hh').1
  pending path := by
    have hcount := Table.count_erase (p := Handler.Pends path) hh
    have hnow : Handler.Pends path h ↔ h.path = path := by
      unfold Handler.Pends
      rw [hstage]
      exact and_iff_right rfl
    rw [if_congr hnow rfl rfl, hs.pending path] at hcount
    show (s.handlers.erase h.id).count (Handler.Pends path)
      = if path ∈ s.pending.erase h.path then 1 else 0
    by_cases he : h.path = path
    · subst he
      rw [if_pos rfl] at hcount
      rw [if_neg (Finset.notMem_erase _ _)]
      split at hcount
      case isTrue => omega
      case isFalse => omega
    · have hmem : path ∈ s.pending.erase h.path ↔ path ∈ s.pending := by
        rw [Finset.mem_erase]
        exact and_iff_right fun hp => he hp.symm
      rw [if_neg he] at hcount
      rw [if_congr hmem rfl rfl]
      omega
  vacant h' hh' hu := hs.vacant h' (Table.mem_erase.mp hh').1 hu

/-- A new request keeps the admission. -/
theorem accepted (hs : s.Admission) {path : String} {stage : Stage}
    (hfirst : stage.first = true) : (s.accept path stage).Admission where
  fresh h' hh' := by
    rcases Table.mem_put.mp hh' with rfl | ⟨hh', -⟩
    · exact Nat.lt_succ_self _
    · exact Nat.lt_succ_of_lt (hs.fresh h' hh')
  pending path' := by
    have hfree : s.handlers.get? s.requests = none :=
      Table.get?_eq_none.mpr fun h hh => Nat.ne_of_lt (hs.fresh h hh)
    have hnot : ¬ Handler.Pends path' { id := s.requests, path, stage } := by
      rintro ⟨hp, -⟩
      rw [show stage.pends = false from Stage.first_not_pends hfirst] at hp
      cases hp
    show (s.handlers.put _).count _ = _
    rw [Table.count_put_free hfree, if_neg hnot]
    exact hs.pending path'
  vacant h' hh' hu := by
    rcases Table.mem_put.mp hh' with rfl | ⟨hh', -⟩
    · have hp := Stage.pends_of_unstored hu
      rw [show stage.pends = false from Stage.first_not_pends hfirst] at hp
      cases hp
    · exact hs.vacant h' hh' hu

end Controller.Admission

/-- An entry is taken away, or has another context. -/
theorem get?_takeOut {e : ActiveSession} {path : String}
    (h : s.sessions.get? path = none) :
    (s.takeOut e).sessions.get? path = none := by
  show (s.sessions.erase e.path).get? path = none
  rw [Table.get?_erase, h, ite_self]

theorem get?_renew {e : ActiveSession} (he : e ∈ s.sessions) {path : String}
    (h : s.sessions.get? path = none) :
    (s.renew e).sessions.get? path = none := by
  show (s.sessions.put _).get? path = none
  rw [Table.get?_put, if_neg, h]
  rintro rfl
  exact Table.get?_eq_none.mp h e he rfl

theorem deleteMedia_eq (s : Controller) (path : String) (reply : Reply) :
    ∃ media, s.deleteMedia path reply = { s with media } := by
  unfold Controller.deleteMedia
  split
  case isTrue => exact ⟨_, rfl⟩
  case isFalse => exact ⟨s.media, rfl⟩

/-- A handler's turn keeps the admission. -/
theorem Turn.admission (hturn : Turn s h reply s') (hh : h ∈ s.handlers)
    (hs : s.Admission) : s'.Admission := by
  cases hturn with
  | admitted hstage hvacant hpending =>
      exact hs.admitted hh hstage hvacant hpending
  | stored hstage => exact hs.stored hh hstage
  | unpended hstage => exact hs.unpended hh hstage
  | granted hstage | validated hstage | invalid hstage =>
      exact hs.moves hh (by rw [hstage]; rfl) (by rw [hstage]; exact id)
        rfl rfl rfl fun _ hnone => hnone
  | denied hstage | rejected hstage =>
      exact hs.moves hh (by rw [hstage]; rfl) (fun hu => by cases hu)
        rfl rfl rfl fun _ hnone => hnone
  | found hstage | configured hstage | unconfigured hstage
  | gone hstage =>
      exact hs.moves hh (by rw [hstage]; rfl) (by rw [hstage]; exact id)
        rfl rfl rfl fun _ hnone => hnone
  | confirmed hstage he =>
      exact hs.moves hh (by rw [hstage]; rfl) (by rw [hstage]; exact id)
        rfl rfl rfl fun _ hnone => get?_renew (Table.mem_of_get? he) hnone
  | abandoned hstage | removed hstage =>
      exact hs.moves hh (by rw [hstage]; rfl) (by rw [hstage]; exact id)
        rfl rfl rfl fun _ hnone => get?_takeOut hnone
  | deleted hstage =>
      obtain ⟨media, he⟩ := deleteMedia_eq s h.path reply
      rw [he]
      exact hs.moves hh (by rw [hstage]; rfl) (by rw [hstage]; exact id)
        rfl rfl rfl fun _ hnone => hnone
  | cleaned hstage =>
      obtain ⟨media, he⟩ := deleteMedia_eq s h.path reply
      rw [he]
      exact hs.returns hh (by rw [hstage]; rfl) rfl rfl rfl rfl
  | busy hstage | unknown hstage | replaced hstage | running hstage
  | left hstage | nothing hstage | closed hstage =>
      exact hs.returns hh (by rw [hstage]; rfl) rfl rfl rfl rfl

theorem Step.admission (hstep : Step s action s') (hs : s.Admission) :
    s'.Admission := by
  cases hstep with
  | refused =>
      exact ⟨fun h hh => Nat.lt_succ_of_lt (hs.fresh h hh), hs.pending,
        hs.vacant⟩
  | accepted hfirst => exact hs.accepted hfirst
  | turn hh hturn => exact hturn.admission (Table.mem_of_get? hh) hs
  | heartbeats => exact ⟨hs.fresh, hs.pending, hs.vacant⟩

end StreamBrew.Restream
