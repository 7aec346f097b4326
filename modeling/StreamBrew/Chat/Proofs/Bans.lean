/-
Which ban identifier is stored while a ban stands.

# Where an identifier is

The provider returns an identifier once. It is then in the hands of the
command that it was returned to (`Pending`) until that command saves it,
and in the table until another command of the same user replaces or
deletes it. `Kept` says that the identifier of the standing ban is in
one of the two places, and `Missed` that it is in neither; once missed
it is missed for good, because no provider returns it again.

# The condition

A step keeps the standing identifier (`Keeps`) unless it is the audit
entry or the save of its own command failing, or a save or a deletion by
another command after it was saved. The stored identifier is right at
the end of a run exactly if all steps kept it (`stored_iff_kept`).
-/
import StreamBrew.Lib.History
import StreamBrew.Chat.Moderation

namespace StreamBrew.Chat.Moderation

open Relational Relational.Table History

variable {own : String} {source : ConnectedSource}

variable {configured : Provider → Bool} {s : System} {call : Call}
  {callID : Nat} {key : BanKey} {banID : String} {stage : Stage}
  {log : List Effect}

-- =============================== definitions

/-- A ban or a timeout. -/
def Effect.Bans (e : Effect) : Prop :=
  e.command.type = .banUser ∨ e.command.type = .timeoutUser

instance (e : Effect) : Decidable e.Bans :=
  inferInstanceAs (Decidable (_ ∨ _))

/-- The identifier of the last ban or timeout that the provider carried
out for a user, unless an unban followed it. -/
def standing (key : BanKey) (log : List Effect) : Option String :=
  log.foldl (fun before e =>
    if e.command.key ≠ key then before
    else if e.Bans then some e.providerBanID
    else if e.command.type = .unbanUser then none
    else before) none

/-- The identifiers that the provider returned. -/
def returned (log : List Effect) : List String :=
  (log.map Effect.providerBanID).filter (· ≠ "")

/-- Every ban and timeout returns an identifier, and none is returned
twice. -/
structure Fresh (log : List Effect) : Prop where
  nonempty : ∀ e ∈ log, e.Bans → e.providerBanID ≠ ""
  nodup : (returned log).Nodup

/-- The identifier stored for a user. -/
def System.stored (key : BanKey) (s : System) : Option String :=
  (s.bans.get? key).map ProviderBan.providerBanID

/-- The call has been answered. -/
def Call.done (c : Call) : Bool :=
  match c.stage with
  | .ended _ => true
  | _ => false

/-- The step does not lose the identifier of the standing ban. -/
def Keeps (key : BanKey) (banID : String) (s : System) : Action → Prop
  | .moderate _ _ => True
  | .proceed callID answer =>
      match s.calls[callID]? with
      | none => True
      | some call =>
          match call.stage, answer with
          | .auditing _ (.ok own), .audited reply =>
              own = banID → call.command.type ≠ .deleteMessage →
                reply = .answered
          | .saving own, .saved reply =>
              if own = banID then reply ≠ .failed
              else call.command.key = key → s.stored key = some banID →
                reply = .failed
          | .deleting, .deleted reply =>
              call.command.key = key → s.stored key = some banID →
                reply = .failed
          | _, _ => True

-- ==================================== stages

/-- The command has the identifier, and may still save it. -/
def Pending (banID : String) (c : Call) : Bool :=
  match c.stage with
  | .auditing _ (.ok own) => own = banID ∧ c.command.type ≠ .deleteMessage
  | .saving own => own = banID
  | _ => false

/-- The identifier is with commands and in the table this many times. -/
def System.held (banID : String) (s : System) : Nat :=
  s.calls.countP (Pending banID)
    + s.bans.count fun r => r.providerBanID = banID

variable (banID stage) in
theorem held_setStage (hcall : s.calls[callID]? = some call) :
    (s.setStage callID stage).held banID
        + (if Pending banID call then 1 else 0)
      = s.held banID + if Pending banID { call with stage } then 1 else 0 := by
  have hcount := countP_modify (p := Pending banID)
    (f := fun c : Call => { c with stage }) hcall
  simp only [System.held, System.setStage]
  omega

/-- A command does not come by the identifier on its own. -/
theorem held_weaken (hcall : s.calls[callID]? = some call)
    (hpending : Pending banID { call with stage } = true →
      Pending banID call = true) :
    (s.setStage callID stage).held banID ≤ s.held banID := by
  have h := held_setStage banID stage hcall
  by_cases hafter : Pending banID { call with stage } = true
  · rw [if_pos hafter, if_pos (hpending hafter)] at h
    omega
  · rw [if_neg hafter] at h
    omega

theorem held_quiet (hcall : s.calls[callID]? = some call)
    (hquiet : Pending banID { call with stage } = false) :
    (s.setStage callID stage).held banID ≤ s.held banID :=
  held_weaken hcall fun h => by rw [hquiet] at h; cases h

theorem pending_request :
    Pending banID { call with stage := request source own } = false := by
  unfold request
  split <;> rfl

theorem pending_afterGetSource {c : ModerationCommand}
    {answer : Option (Option ConnectedSource)} :
    Pending banID { call with stage := afterGetSource configured c answer }
      = false := by
  unfold afterGetSource
  split
  case h_1 => rfl
  case h_2 => rfl
  case h_3 source =>
    simp only
    split
    case isTrue => rfl
    case isFalse =>
      split
      case isTrue => rfl
      case isFalse => exact pending_request

theorem pending_afterSave {c : ModerationCommand} :
    Pending banID { call with stage := afterSave c } = false := by
  unfold afterSave
  split
  case isTrue => rfl
  case isFalse => split <;> rfl

/-- What a command has after its audit entry, it had before. -/
theorem pending_afterAudit {outcome : Outcome}
    (hstage : call.stage = .auditing source outcome)
    (h : Pending banID { call with
      stage := afterAudit call.command outcome } = true) :
    Pending banID call = true := by
  cases outcome with
  | error => cases h
  | ok own =>
      unfold afterAudit at h
      simp only at h
      split at h
      case isTrue howns =>
        simp only [Pending, hstage, decide_eq_true_eq] at h ⊢
        exact ⟨h, howns.2⟩
      case isFalse =>
        rw [pending_afterSave] at h
        cases h

-- ================================ accounting

variable (key banID) in
/-- A saved identifier replaces the one under its key. -/
theorem count_put_le (bans : Table ProviderBan.key) (own : String) :
    (bans.put { key, providerBanID := own }).count
        (fun r => r.providerBanID = banID)
      ≤ (bans.count fun r => r.providerBanID = banID)
        + if own = banID then 1 else 0 := by
  rw [count_put]
  refine Nat.add_le_add_right ?_ _
  unfold erase
  rw [count_delete]
  exact count_mono fun r _ hr => hr.1

theorem count_erase_le {bans : Table ProviderBan.key} :
    ((bans.erase key).count fun r => r.providerBanID = banID)
      ≤ bans.count fun r => r.providerBanID = banID := by
  unfold erase
  rw [count_delete]
  exact count_mono fun r _ hr => hr.1

/-- A save moves the identifier from the command to the table. -/
theorem held_save (hcall : s.calls[callID]? = some call)
    (hstage : call.stage = .saving own)
    (hquiet : Pending banID { call with stage } = false) :
    (({ s with bans := s.bans.put { key, providerBanID := own } }).setStage
      callID stage).held banID ≤ s.held banID := by
  have h := held_setStage banID stage
    (s := { s with bans := s.bans.put { key, providerBanID := own } }) hcall
  have hput := count_put_le key banID s.bans own
  have hpending : (if Pending banID call then 1 else 0)
      = if own = banID then 1 else 0 := by
    simp only [Pending, hstage, decide_eq_true_eq]
  rw [hquiet, if_neg Bool.false_ne_true, hpending] at h
  simp only [System.held] at h ⊢
  omega

theorem held_erase (hcall : s.calls[callID]? = some call)
    (hquiet : Pending banID { call with stage } = false) :
    (({ s with bans := s.bans.erase key }).setStage callID stage).held banID
      ≤ s.held banID := by
  refine Nat.le_trans (held_quiet (s := { s with bans := s.bans.erase key })
    hcall hquiet) ?_
  exact Nat.add_le_add_left count_erase_le _

/-- The identifier goes to the command that it is returned to. -/
theorem held_called (hcall : s.calls[callID]? = some call) (hne : banID ≠ "")
    {log : List Effect}
    (hlog : log
      = s.log ++ [{ command := call.command, providerBanID := own }]) :
    (({ s with log }).setStage callID (.auditing source (.ok own))).held banID
        + (returned s.log).count banID
      ≤ s.held banID + (returned log).count banID := by
  have h := held_setStage banID (.auditing source (.ok own))
    (s := { s with log }) hcall
  have hreturned : (returned log).count banID
      = (returned s.log).count banID + if own = banID then 1 else 0 := by
    rw [hlog, returned, returned, List.map_append, List.filter_append,
      List.count_append]
    by_cases howns : own = banID
    · subst howns
      simp [hne]
    · by_cases hempty : own = "" <;> simp [howns, hempty, Ne.symm hne]
  have hpending : (if Pending banID { call with
        stage := .auditing source (.ok own) } then 1 else 0)
      ≤ if own = banID then 1 else 0 := by
    by_cases howns : own = banID <;> simp [Pending, howns]
    split <;> omega
  simp only [System.held] at h ⊢
  omega

/-- Only a provider makes identifiers. -/
theorem held_proceed (hcall : s.calls[callID]? = some call)
    (hne : banID ≠ "") (answer : Answer) :
    (s.proceed configured callID call answer).held banID
        + (returned s.log).count banID
      ≤ s.held banID + (returned
        (s.proceed configured callID call answer).log).count banID := by
  unfold System.proceed
  simp only
  split
  case h_1 =>
    exact Nat.add_le_add_right (held_quiet hcall pending_afterGetSource) _
  case h_2 =>
    refine Nat.add_le_add_right (held_quiet hcall ?_) _
    split
    case isTrue => exact pending_request
    case isFalse => rfl
  case h_3 source own outcome hstage =>
    cases outcome with
    | error => exact Nat.add_le_add_right (held_quiet hcall rfl) _
    | ok own => exact held_called hcall hne rfl
  case h_4 source outcome reply hstage =>
    cases reply with
    | answered =>
        exact Nat.add_le_add_right
          (held_weaken hcall (pending_afterAudit hstage)) _
    | lost => exact Nat.add_le_add_right (held_quiet hcall rfl) _
    | failed => exact Nat.add_le_add_right (held_quiet hcall rfl) _
  case h_5 own reply hstage =>
    cases reply with
    | answered =>
        exact Nat.add_le_add_right
          (held_save hcall hstage pending_afterSave) _
    | lost => exact Nat.add_le_add_right (held_save hcall hstage rfl) _
    | failed => exact Nat.add_le_add_right (held_quiet hcall rfl) _
  case h_6 reply hstage =>
    cases reply with
    | answered => exact Nat.add_le_add_right (held_erase hcall rfl) _
    | lost => exact Nat.add_le_add_right (held_erase hcall rfl) _
    | failed => exact Nat.add_le_add_right (held_quiet hcall rfl) _
  case h_7 reply hstage =>
    cases reply with
    | answered => exact Nat.add_le_add_right (held_quiet hcall rfl) _
    | lost => exact Nat.add_le_add_right (held_quiet hcall rfl) _
    | failed => exact Nat.add_le_add_right (held_quiet hcall rfl) _
  case h_8 => exact Nat.le_refl _

/-- A command that had the identifier goes on without it. -/
theorem held_dropped (hcall : s.calls[callID]? = some call)
    (hpending : Pending banID call = true)
    (hquiet : Pending banID { call with stage } = false) :
    (s.setStage callID stage).held banID + 1 ≤ s.held banID := by
  have h := held_setStage banID stage hcall
  rw [hquiet, if_neg Bool.false_ne_true, if_pos hpending] at h
  omega

theorem held_moderate (hquiet : Pending banID call = false) :
    System.held banID { s with calls := s.calls ++ [call] }
      = s.held banID := by
  simp only [System.held, List.countP_append, List.countP_singleton, hquiet,
    Bool.false_eq_true, if_false, Nat.add_zero]

variable (configured s) in
theorem held_step (hne : banID ≠ "") (a : Action) :
    (s.step configured a).held banID + (returned s.log).count banID
      ≤ s.held banID + (returned (s.step configured a).log).count banID := by
  cases a with
  | moderate userID command =>
      refine Nat.add_le_add_right (Nat.le_of_eq (held_moderate ?_)) _
      cases command.trimmed.validate <;> rfl
  | proceed callID answer =>
      simp only [System.step]
      split
      case h_1 => exact Nat.le_refl _
      case h_2 call hcall => exact held_proceed hcall hne answer

/-- The identifier under the key goes. -/
theorem count_erase_lt (hstored : s.stored key = some banID) :
    ((s.bans.erase key).count fun r => r.providerBanID = banID) + 1
      ≤ s.bans.count fun r => r.providerBanID = banID := by
  obtain ⟨r, hr, hban⟩ := Option.map_eq_some_iff.mp hstored
  obtain ⟨hmem, rfl⟩ := get?_eq_some.mp hr
  have herase := count_erase (p := fun r => r.providerBanID = banID) hmem
  rw [if_pos hban] at herase
  exact Nat.le_of_eq herase

theorem count_put_lt (howns : own ≠ banID)
    (hstored : s.stored key = some banID) :
    ((s.bans.put { key, providerBanID := own }).count
        fun r => r.providerBanID = banID) + 1
      ≤ s.bans.count fun r => r.providerBanID = banID := by
  rw [count_put, if_neg howns]
  exact count_erase_lt hstored

/-- The table has one identifier fewer, and the command none. -/
theorem held_replaced {bans : Table ProviderBan.key}
    (hcall : s.calls[callID]? = some call)
    (hquiet : Pending banID { call with stage } = false)
    (hbans : (bans.count fun r => r.providerBanID = banID) + 1
      ≤ s.bans.count fun r => r.providerBanID = banID) :
    (({ s with bans }).setStage callID stage).held banID + 1
      ≤ s.held banID := by
  have h := held_quiet (s := { s with bans }) hcall hquiet
  simp only [System.held] at h ⊢
  omega

variable (configured) in
/-- A step that does not keep the standing identifier leaves it with one
fewer. -/
theorem held_lost {a : Action} (h : ¬ Keeps key banID s a) :
    (s.step configured a).held banID + 1 ≤ s.held banID := by
  cases a with
  | moderate => exact absurd trivial h
  | proceed callID answer =>
      cases hcall : s.calls[callID]? with
      | none =>
        simp only [Keeps, hcall] at h
        exact absurd trivial h
      | some call =>
        simp only [Keeps, hcall] at h
        simp only [System.step, hcall, System.proceed]
        split at h
        case h_1 source own reply hstage =>
          -- the audit entry fails, and the command ends
          simp only [Classical.not_imp] at h
          obtain ⟨howns, htype, hreply⟩ := h
          have hpending : Pending banID call = true := by
            simp only [Pending, hstage, decide_eq_true_eq]
            exact ⟨howns, htype⟩
          rw [hstage]
          cases reply with
          | answered => exact absurd rfl hreply
          | lost =>
              exact held_dropped (s := { s with actions := _ }) hcall
                hpending rfl
          | failed => exact held_dropped hcall hpending rfl
        case h_2 own reply hstage =>
          rw [hstage]
          split at h
          case isTrue howns =>
            -- its own command does not save it
            have hpending : Pending banID call = true := by
              simp only [Pending, hstage, decide_eq_true_eq]
              exact howns
            rw [not_not] at h
            subst h
            exact held_dropped hcall hpending rfl
          case isFalse howns =>
            -- another command saves its own
            simp only [Classical.not_imp] at h
            obtain ⟨rfl, hstored, hreply⟩ := h
            have hput := count_put_lt howns hstored
            cases reply with
            | answered => exact held_replaced hcall pending_afterSave hput
            | lost => exact held_replaced hcall rfl hput
            | failed => exact absurd rfl hreply
        case h_3 reply hstage =>
          rw [hstage]
          simp only [Classical.not_imp] at h
          obtain ⟨rfl, hstored, hreply⟩ := h
          have herase := count_erase_lt hstored
          cases reply with
          | answered => exact held_replaced hcall rfl herase
          | lost => exact held_replaced hcall rfl herase
          | failed => exact absurd rfl hreply
        case h_4 => exact absurd trivial h

-- ====================================== runs

variable (configured s) in
/-- What one step adds to the log. -/
theorem log_step (a : Action) :
    (s.step configured a).log = s.log
      ∨ ∃ callID source own banID call,
        s.calls[callID]? = some call
          ∧ call.stage = .calling source own
          ∧ a = .proceed callID (.called (.ok banID))
          ∧ (s.step configured a).log
            = s.log
              ++ [{ command := call.command, providerBanID := banID }] := by
  cases a with
  | moderate => exact .inl rfl
  | proceed callID answer =>
      simp only [System.step]
      split
      case h_1 => exact .inl rfl
      case h_2 call hcall =>
        simp only [System.proceed]
        split
        case h_1 => exact .inl rfl
        case h_2 => exact .inl rfl
        case h_3 source own outcome hstage =>
          cases outcome with
          | error => exact .inl rfl
          | ok banID =>
              exact .inr ⟨callID, source, own, banID, call, hcall, hstage,
                rfl, rfl⟩
        case h_4 source outcome reply hstage => cases reply <;> exact .inl rfl
        case h_5 own reply hstage => cases reply <;> exact .inl rfl
        case h_6 reply hstage => cases reply <;> exact .inl rfl
        case h_7 reply hstage => cases reply <;> exact .inl rfl
        case h_8 => exact .inl rfl

variable (configured s banID) in
theorem returned_step_le (a : Action) :
    (returned s.log).count banID
      ≤ (returned (s.step configured a).log).count banID := by
  rcases log_step configured s a with h | h
  · rw [h]
  · obtain ⟨_, _, _, _, _, _, _, _, h⟩ := h
    rw [h, returned, returned, List.map_append, List.filter_append,
      List.count_append]
    exact Nat.le_add_right _ _

variable (configured s) in
/-- Through any run, at most what providers returned is added. -/
theorem held_run (hne : banID ≠ "") (acts : List Action) :
    (Run.run (System.step configured) s acts).held banID
          + (returned s.log).count banID
        ≤ s.held banID
          + (returned (Run.run (System.step configured) s acts).log).count
            banID
      ∧ (returned s.log).count banID
        ≤ (returned (Run.run (System.step configured) s acts).log).count
          banID := by
  induction acts generalizing s with
  | nil => exact ⟨Nat.le_refl _, Nat.le_refl _⟩
  | cons a acts ih =>
      rw [Run.run_cons]
      have hstep := held_step configured s hne a
      have hcount := returned_step_le configured s banID a
      obtain ⟨hheld, hle⟩ := ih (s := s.step configured a)
      omega

theorem standing_snoc (e : Effect) :
    standing key (log ++ [e])
      = if e.command.key ≠ key then standing key log
        else if e.Bans then some e.providerBanID
        else if e.command.type = .unbanUser then none
        else standing key log := by
  unfold standing
  rw [List.foldl_append]
  rfl

/-- The standing ban was returned by the provider. -/
theorem mem_of_standing (h : standing key log = some banID) :
    ∃ e ∈ log, e.Bans ∧ e.providerBanID = banID := by
  induction log using List.reverseRecOn with
  | nil => cases h
  | append_singleton log e ih =>
      have hrest : standing key log = some banID →
          ∃ d ∈ log ++ [e], d.Bans ∧ d.providerBanID = banID := fun h =>
        (ih h).imp fun d hd => ⟨List.mem_append_left _ hd.1, hd.2⟩
      rw [standing_snoc] at h
      split at h
      case isTrue => exact hrest h
      case isFalse =>
        split at h
        case isTrue hbans =>
          injection h with h
          exact ⟨e, List.mem_append_right _ (List.mem_singleton_self e),
            hbans, h⟩
        case isFalse =>
          split at h
          case isTrue => cases h
          case isFalse => exact hrest h

/-- The identifier is with a command for the user, or in the table. -/
def Has (key : BanKey) (banID : String) (s : System) : Prop :=
  (∃ (i : Nat) (c : Call), s.calls[i]? = some c ∧ Pending banID c = true
    ∧ c.command.key = key) ∨ s.stored key = some banID

/-- While its ban stands, the identifier is not missed. -/
def Kept (key : BanKey) (banID : String) (s : System) : Prop :=
  standing key s.log = some banID → Has key banID s

theorem setStage_self (hcall : s.calls[callID]? = some call) :
    (s.setStage callID stage).calls[callID]? = some { call with stage } := by
  rw [System.setStage, List.getElem?_modify_eq, hcall]
  rfl

theorem setStage_ne {i : Nat} (hi : callID ≠ i) :
    (s.setStage callID stage).calls[i]? = s.calls[i]? :=
  List.getElem?_modify_ne _ _ hi

/-- One command moves on, and rows may change with it. -/
theorem Has.write (bans : Table ProviderBan.key) (h : Has key banID s)
    (hcall : s.calls[callID]? = some call)
    (hstored : s.stored key = some banID →
      System.stored key { s with bans } = some banID)
    (hpending : Pending banID call = true → call.command.key = key →
      Pending banID { call with stage } = true
        ∨ System.stored key { s with bans } = some banID) :
    Has key banID (({ s with bans }).setStage callID stage) := by
  rcases h with ⟨i, c, hi, hc, hkey⟩ | h
  · by_cases hid : callID = i
    · subst hid
      rw [hcall] at hi
      cases hi
      rcases hpending hc hkey with hafter | hafter
      · exact .inl ⟨callID, { call with stage }, setStage_self hcall, hafter,
          hkey⟩
      · exact .inr hafter
    · exact .inl ⟨i, c, (setStage_ne hid).trans hi, hc, hkey⟩
  · exact .inr (hstored h)

/-- The command did not have the identifier. -/
theorem Has.setStage (h : Has key banID s)
    (hcall : s.calls[callID]? = some call)
    (hpending : Pending banID call = true →
      Pending banID { call with stage } = true) :
    Has key banID (s.setStage callID stage) :=
  h.write s.bans hcall id fun hc _ => .inl (hpending hc)

theorem stored_put :
    System.stored key { s with
        bans := s.bans.put { key := call.command.key, providerBanID := own } }
      = if key = call.command.key then some own else s.stored key := by
  unfold System.stored
  rw [get?_put]
  split <;> rfl

theorem stored_erase :
    System.stored key { s with bans := s.bans.erase call.command.key }
      = if key = call.command.key then none else s.stored key := by
  unfold System.stored
  rw [get?_erase]
  split <;> rfl

/-- The provider's answer is kept until its row is written. -/
theorem kept_called {given : String}
    {log : List Effect} (h : Kept key banID s)
    (hcall : s.calls[callID]? = some call)
    (hstage : call.stage = .calling source given)
    (hlog : log = s.log
      ++ [{ command := call.command, providerBanID := own }]) :
    Kept key banID
      (({ s with log }).setStage callID (.auditing source (.ok own))) := by
  have hquiet : Pending banID call = true → False := by
    simp [Pending, hstage]
  have hbefore : standing key s.log = some banID → Has key banID
      (({ s with log }).setStage callID (.auditing source (.ok own))) :=
    fun hs => Has.setStage (s := { s with log }) (h hs) hcall
      fun hc => (hquiet hc).elim
  intro hstanding
  change standing key log = some banID at hstanding
  rw [hlog, standing_snoc] at hstanding
  split at hstanding
  case isTrue => exact hbefore hstanding
  case isFalse hkey =>
    rw [not_not] at hkey
    split at hstanding
    case isTrue hbans =>
      -- the ban now stands, and its command has the identifier
      injection hstanding with howns
      refine .inl ⟨callID, { call with stage := .auditing source (.ok own) },
        setStage_self hcall, ?_, hkey⟩
      rw [Pending, decide_eq_true_eq]
      refine ⟨howns, fun htype => ?_⟩
      rcases hbans with hbans | hbans <;> cases htype.symm.trans hbans
    case isFalse =>
      split at hstanding
      case isTrue => cases hstanding
      case isFalse => exact hbefore hstanding

theorem pending_auditing (hstage : call.stage = .auditing source (.ok own))
    (h : Pending banID call = true) :
    own = banID ∧ call.command.type ≠ .deleteMessage := by
  simpa only [Pending, hstage, decide_eq_true_eq] using h

/-- After its audit entry, the command saves the identifier. -/
theorem pending_saving
    (hstage : call.stage = .auditing source (.ok own)) (hne : banID ≠ "")
    (h : Pending banID call = true) :
    Pending banID { call with stage := afterAudit call.command (.ok own) }
      = true := by
  obtain ⟨rfl, htype⟩ := pending_auditing hstage h
  rw [afterAudit, if_pos ⟨hne, htype⟩]
  simp [Pending]

/-- A save that does not overwrite the identifier of another command. -/
theorem has_saved (h : Has key banID s) (hcall : s.calls[callID]? = some call)
    (hstage : call.stage = .saving own)
    (hkeeps : own ≠ banID → call.command.key = key →
      s.stored key ≠ some banID) :
    Has key banID (({ s with
        bans := s.bans.put { key := call.command.key, providerBanID := own }
      }).setStage callID stage) := by
  refine h.write _ hcall (fun hstored => ?_) fun hc hkey => .inr ?_
  · rw [stored_put]
    split
    case isTrue hkey =>
      by_cases howns : own = banID
      · rw [howns]
      · exact absurd hstored (hkeeps howns hkey.symm)
    case isFalse => exact hstored
  · have howns : own = banID := by simpa [Pending, hstage] using hc
    rw [stored_put, if_pos hkey.symm, howns]

/-- A deletion that does not take the identifier. -/
theorem has_deleted (h : Has key banID s)
    (hcall : s.calls[callID]? = some call) (hstage : call.stage = .deleting)
    (hkeeps : call.command.key = key → s.stored key ≠ some banID) :
    Has key banID (({ s with bans := s.bans.erase call.command.key }).setStage
      callID stage) := by
  refine h.write _ hcall (fun hstored => ?_) fun hc _ => ?_
  · rw [stored_erase, if_neg fun hkey => hkeeps hkey.symm hstored]
    exact hstored
  · simp [Pending, hstage] at hc

/-- One case for each stage that waits for an answer. -/
theorem kept_proceed (h : Kept key banID s) (hne : banID ≠ "")
    (hcall : s.calls[callID]? = some call) {answer : Answer}
    (hkeeps : standing key s.log = some banID →
      Keeps key banID s (.proceed callID answer)) :
    Kept key banID (s.proceed configured callID call answer) := by
  simp only [Keeps, hcall] at hkeeps
  unfold System.proceed
  simp only
  split
  case h_1 source hstage =>
    exact fun hs => (h hs).setStage hcall fun hc => by
      simp [Pending, hstage] at hc
  case h_2 source reply hstage =>
    exact fun hs => (h hs).setStage hcall fun hc => by
      simp [Pending, hstage] at hc
  case h_3 source own outcome hstage =>
    cases outcome with
    | error =>
        exact fun hs => (h hs).setStage hcall fun hc => by
          simp [Pending, hstage] at hc
    | ok own => exact kept_called h hcall hstage rfl
  case h_4 source outcome reply hstage =>
    cases outcome with
    | error =>
        have hquiet : Pending banID call = true → False := by
          simp [Pending, hstage]
        cases reply <;> exact fun hs =>
          Has.setStage (s := { s with actions := _ }) (h hs) hcall
            fun hc => (hquiet hc).elim
    | ok own =>
        rw [hstage] at hkeeps
        cases reply with
        | answered =>
            exact fun hs => Has.setStage (s := { s with actions := _ }) (h hs)
              hcall (pending_saving hstage hne)
        | lost =>
            exact fun hs => Has.setStage (s := { s with actions := _ }) (h hs)
              hcall fun hc => absurd (hkeeps hs
                (pending_auditing hstage hc).1 (pending_auditing hstage hc).2)
                (by decide)
        | failed =>
            exact fun hs => (h hs).setStage hcall fun hc => absurd (hkeeps hs
              (pending_auditing hstage hc).1 (pending_auditing hstage hc).2)
              (by decide)
  case h_5 own reply hstage =>
    rw [hstage] at hkeeps
    simp only at hkeeps
    cases reply with
    | answered =>
        exact fun hs => has_saved (h hs) hcall hstage fun howns hkey hst => by
          have := hkeeps hs
          rw [if_neg howns] at this
          cases this hkey hst
    | lost =>
        exact fun hs => has_saved (h hs) hcall hstage fun howns hkey hst => by
          have := hkeeps hs
          rw [if_neg howns] at this
          cases this hkey hst
    | failed =>
        refine fun hs => (h hs).setStage hcall fun hc => ?_
        have howns : own = banID := by simpa [Pending, hstage] using hc
        have := hkeeps hs
        rw [if_pos howns] at this
        exact absurd rfl this
  case h_6 reply hstage =>
    rw [hstage] at hkeeps
    cases reply with
    | answered =>
        exact fun hs => has_deleted (h hs) hcall hstage fun hkey hst => by
          cases hkeeps hs hkey hst
    | lost =>
        exact fun hs => has_deleted (h hs) hcall hstage fun hkey hst => by
          cases hkeeps hs hkey hst
    | failed =>
        exact fun hs => (h hs).setStage hcall fun hc => by
          simp [Pending, hstage] at hc
  case h_7 reply hstage =>
    cases reply <;> exact fun hs => (h hs).setStage hcall fun hc => by
      simp [Pending, hstage] at hc
  case h_8 => exact h

/-- A step that keeps the ban leaves it stored or pending. -/
theorem kept_step (h : Kept key banID s) (hne : banID ≠ "") {a : Action}
    (hkeeps : standing key s.log = some banID → Keeps key banID s a) :
    Kept key banID (s.step configured a) := by
  cases a with
  | moderate userID command =>
      intro hs
      rcases h hs with ⟨i, c, hi, hc, hkey⟩ | hstored
      · refine .inl ⟨i, c, ?_, hc, hkey⟩
        exact (List.getElem?_append_left
          (List.getElem?_eq_some_iff.mp hi).1).trans hi
      · exact .inr hstored
  | proceed callID answer =>
      simp only [System.step]
      split
      case h_1 => exact h
      case h_2 call hcall => exact kept_proceed h hne hcall hkeeps

-- ==================================== result

theorem ne_of_standing (hfresh : Fresh log)
    (h : standing key log = some banID) : banID ≠ "" := by
  obtain ⟨e, he, hbans, rfl⟩ := mem_of_standing h
  exact hfresh.nonempty e he hbans

/-- A stored identifier is one that is held. -/
theorem held_of_stored (h : s.stored key = some banID) :
    1 ≤ s.held banID := by
  have := count_erase_lt h
  unfold System.held
  omega

/-- An identifier that a step loses is not found again. -/
theorem not_stored_of_lost {before : List Action} {a : Action}
    {after : List Action} (hne : banID ≠ "")
    (honce : (returned (Run.run (System.step configured) {}
      (before ++ a :: after)).log).count banID ≤ 1)
    (hlost : ¬ Keeps key banID (Run.run (System.step configured) {} before)
      a) :
    (Run.run (System.step configured) {} (before ++ a :: after)).stored key
      ≠ some banID := by
  rw [Run.run_append, Run.run_cons] at honce ⊢
  intro hstored
  have hfinal := held_of_stored hstored
  obtain ⟨hbefore, -⟩ := held_run configured {} hne before
  have hinit : System.held banID {} + 0 = 0 := rfl
  have hdrop := held_lost configured hlost
  have hmono := returned_step_le configured
    (Run.run (System.step configured) {} before) banID a
  obtain ⟨hafter, -⟩ := held_run configured
    ((Run.run (System.step configured) {} before).step configured a) hne after
  omega

/-- When all commands have returned, the identifier of the standing ban
is the stored one exactly if every step since that ban kept it. -/
theorem stored_iff_kept (acts : List Action) (key : BanKey)
    (hfresh : Fresh (Run.run (System.step configured) {} acts).log)
    (hdone : ∀ c ∈ (Run.run (System.step configured) {} acts).calls,
      c.done = true) :
    (∀ banID, standing key (Run.run (System.step configured) {} acts).log
        = some banID →
      (Run.run (System.step configured) {} acts).stored key = some banID) ↔
    ∀ banID, standing key (Run.run (System.step configured) {} acts).log
        = some banID →
      Run.Along (System.step configured)
        (fun s a => standing key s.log = some banID → Keeps key banID s a)
        {} acts := by
  refine forall₂_congr fun banID hstanding => ?_
  have hne := ne_of_standing hfresh hstanding
  constructor
  · intro hstored
    refine Run.along_of_steps fun before a after hacts hs => ?_
    by_contra hlost
    subst hacts
    exact not_stored_of_lost hne
      (List.nodup_iff_count_le_one.mp hfresh.nodup banID) hlost hstored
  · intro halong
    have hkept : Kept key banID (Run.run (System.step configured) {} acts) :=
      halong.preserves (fun h => by cases h)
        (fun s a h hkeeps => kept_step h hne hkeeps) acts [] (by simp)
    rcases hkept hstanding with ⟨i, c, hi, hc, -⟩ | hstored
    · -- a command that has returned has nothing left to save
      have := hdone c (List.mem_of_getElem? hi)
      unfold Call.done at this
      unfold Pending at hc
      split at this
      case h_1 hstage =>
        rw [hstage] at hc
        cases hc
      case h_2 => cases this
    · exact hstored

section Runs

/-- A YouTube source with the scope that bans need. -/
def youtubeSource : ConnectedSource where
  source :=
    { sourceID := 1, connectionID := 1, provider := .youtube
      providerSourceID := "channel", displayName := "Channel"
      sourceURL := "https://www.youtube.com/channel/channel", position := 0 }
  credentials :=
    { accessToken := "access", refreshToken := "refresh", deviceID := ""
      expiresAt := none, tokenVersion := 1
      scopes := ["https://www.googleapis.com/auth/youtube.force-ssl"] }
  connectionStatus := .connected

/-- Bans a viewer, up to the audit entry and what becomes of it. -/
def ban (reply : Reply) : List Action :=
  [.moderate 42
    { type := .banUser, sourceID := 1, providerUserID := "viewer" },
   .proceed 0 (.loaded (some (some youtubeSource))),
   .proceed 0 (.called (.ok "ban-1")),
   .proceed 0 (.audited reply)]

/-- A ban, with its row. -/
theorem stored_iff_kept_banned :
    let s := Run.run (System.step fun _ => true) {}
      (ban .answered ++ [.proceed 0 (.saved .answered)])
    standing ⟨1, "viewer"⟩ s.log = some "ban-1"
      ∧ s.stored ⟨1, "viewer"⟩ = some "ban-1" := by
  refine ⟨by decide, ?_⟩
  refine (stored_iff_kept _ ⟨1, "viewer"⟩ ⟨by decide, by decide⟩
    (by decide)).mpr (fun banID h => ?_) "ban-1" (by decide)
  have hban : some "ban-1" = some banID := h
  cases hban
  exact ⟨fun _ => trivial, fun _ => trivial, fun _ => trivial,
    fun _ _ _ => rfl, fun _ => (by decide : Reply.answered ≠ .failed),
    trivial⟩

/-- The audit entry fails after the ban, and the identifier is lost. -/
theorem ban_identifier_lost :
    let s := Run.run (System.step fun _ => true) {} (ban .failed)
    Fresh s.log ∧ (∀ c ∈ s.calls, c.done = true)
      ∧ standing ⟨1, "viewer"⟩ s.log = some "ban-1"
      ∧ s.stored ⟨1, "viewer"⟩ = none :=
  ⟨⟨by decide, by decide⟩, by decide, by decide, by decide⟩

end Runs

end StreamBrew.Chat.Moderation
