/-
Who moves the history checkpoint of a saved connection.

A connection row has a mark: whose it is, the account it reads, and its
checkpoint. The two calls that save donations move the mark together
with the donations of their batch (`saveDonations_rows`,
`saveConnectionWithDonations_rows`); no other call gives a row a mark
that no row had (`marks_perform`).
-/
import StreamBrew.Donations.Proofs.Generations
import StreamBrew.Donations.Proofs.Ingestion

namespace StreamBrew.Donations

open Relational
open Alert (UserID Time)

variable {provider : Provider} {userID : UserID}
  {version : ConnectionVersion} {db : Db}

/-- Whose row it is, the account it reads, and its checkpoint. -/
def ConnectionRow.mark (r : ConnectionRow) :
    (Provider × UserID) × String × Option String :=
  (r.key, r.sourceUserID, r.historyCheckpoint)

/-- Every mark after was there before. -/
def KeepsMarks (db db' : Db) : Prop :=
  ∀ r' ∈ db'.connections, ∃ r ∈ db.connections, r.mark = r'.mark

theorem KeepsMarks.refl (db : Db) : KeepsMarks db db :=
  fun r hr => ⟨r, hr, rfl⟩

-- ===================================== saves

/-- A row after SaveDonations is one of before, or the save went through
and gave it the checkpoint. -/
theorem saveDonations_rows {batch : DonationBatch}
    {origin : IngestionOrigin} {acceptedAt : Time}
    {draws : List DonationDraw} {r' : ConnectionRow}
    (hr' : r' ∈ (saveDonations provider version batch origin acceptedAt
      draws db).2.connections) :
    r' ∈ db.connections
      ∨ ((saveDonations provider version batch origin acceptedAt draws
          db).1 = .ok ()
        ∧ Holds batch provider.source version.userID
          (saveDonations provider version batch origin acceptedAt draws
            db).2.alert
        ∧ ∃ r ∈ db.connections, r.Usable provider version
          ∧ r' = { r with
            historyCheckpoint :=
              batch.checkpoint <|> r.historyCheckpoint }) := by
  have hatomic : AllOrNothing db batch provider.source version.userID _
      (saveDonations provider version batch origin acceptedAt draws db) :=
    saveDonations_atomic batch origin acceptedAt draws db
  rcases hatomic with ⟨e, he⟩ | ⟨db', he, hholds, -⟩
  · rw [he] at hr'
    exact Or.inl hr'
  · rw [he] at hr' ⊢
    unfold saveDonations at he
    split at he
    case isFalse => cases he
    case isTrue =>
      unfold Db.commit at he
      split at he
      case h_1 => cases he
      case h_2 =>
        cases he
        change r' ∈ db.connections.update
          (ConnectionRow.Usable provider version)
          (fun r => { r with
            historyCheckpoint :=
              batch.checkpoint <|> r.historyCheckpoint })
          (Table.keeps rfl) at hr'
        rw [Table.mem_update] at hr'
        obtain ⟨r, hr, hupdated⟩ := hr'
        by_cases hu : r.Usable provider version
        · rw [if_pos hu] at hupdated
          exact Or.inr ⟨rfl, hholds, r, hr, hu, hupdated.symm⟩
        · rw [if_neg hu] at hupdated
          exact Or.inl (hupdated ▸ hr)

/-- A row after SaveConnectionWithDonations is one of before, or the
save went through and it is the row of the connection. -/
theorem saveConnectionWithDonations_rows {connection : ProviderConnection}
    {batch : DonationBatch} {now : Time} {draws : List DonationDraw}
    {r' : ConnectionRow}
    (hr' : r' ∈ (saveConnectionWithDonations provider userID connection
      batch now draws db).2.connections) :
    r' ∈ db.connections
      ∨ ((saveConnectionWithDonations provider userID connection batch now
          draws db).1 = .ok ()
        ∧ Holds batch provider.source userID
          (saveConnectionWithDonations provider userID connection batch
            now draws db).2.alert
        ∧ r'.mark = ((provider, userID), connection.sourceUserID,
          batch.checkpoint)) := by
  have hatomic : AllOrNothing db batch provider.source userID _
      (saveConnectionWithDonations provider userID connection batch now
        draws db) :=
    saveConnectionWithDonations_atomic connection batch now draws db
  rcases hatomic with ⟨e, he⟩ | ⟨db', he, hholds, -⟩
  · rw [he] at hr'
    exact Or.inl hr'
  · rw [he] at hr' ⊢
    unfold saveConnectionWithDonations at he
    split at he
    case h_1 => cases he
    case h_2 written hsave =>
      unfold Db.commit at he
      split at he
      case h_1 => cases he
      case h_2 =>
        cases he
        unfold Db.saveConnection at hsave
        split at hsave
        case isTrue => cases hsave
        case isFalse =>
          injection hsave with hsave
          rw [← hsave] at hr'
          rcases Table.mem_upsert.mp hr' with ⟨rfl, -⟩ | ⟨r, hr, hr'⟩
          · exact Or.inr ⟨rfl, hholds, rfl⟩
          · change (if r.key = (provider, userID) then _ else r) = r'
              at hr'
            by_cases hkey : r.key = (provider, userID)
            · rw [if_pos hkey] at hr'
              subst hr'
              exact Or.inr ⟨rfl, hholds, by
                unfold ConnectionRow.mark
                rw [← hkey]
                rfl⟩
            · rw [if_neg hkey] at hr'
              exact Or.inl (hr' ▸ hr)

-- =============================== other calls

theorem keepsMarks_update {p : ConnectionRow → Prop} [DecidablePred p]
    {f : ConnectionRow → ConnectionRow} {hf : ∀ r, (f r).key = r.key}
    (hmark : ∀ r, (f r).mark = r.mark) :
    KeepsMarks db
      { db with connections := db.connections.update p f hf } := by
  intro r' hr'
  change r' ∈ db.connections.update p f hf at hr'
  rw [Table.mem_update] at hr'
  obtain ⟨r, hr, he⟩ := hr'
  refine ⟨r, hr, ?_⟩
  rw [← he]
  split
  case isTrue => exact (hmark r).symm
  case isFalse => rfl

theorem keepsMarks_delete {p : ConnectionRow → Prop} [DecidablePred p] :
    KeepsMarks db
      { db with connections := db.connections.delete p } :=
  fun r' hr' => ⟨r', (Table.mem_delete.mp hr').1, rfl⟩

theorem keepsMarks_setTokensIfVersion {tokens : Tokens} :
    KeepsMarks db (setTokensIfVersion provider version tokens db).2 := by
  unfold setTokensIfVersion
  split
  case isTrue => exact .refl db
  case isFalse => exact keepsMarks_update fun r => rfl

theorem keepsMarks_requireReauthorizationIfVersion :
    KeepsMarks db
      (requireReauthorizationIfVersion provider version db).2 := by
  unfold requireReauthorizationIfVersion
  split
  case isTrue => exact keepsMarks_delete
  case isFalse => exact keepsMarks_update fun r => rfl

theorem keepsMarks_markConnectionErrorIfVersion :
    KeepsMarks db (markConnectionErrorIfVersion provider version db).2 := by
  unfold markConnectionErrorIfVersion
  split
  case isTrue => exact .refl db
  case isFalse => exact keepsMarks_update fun r => rfl

/-- The call saves donations for a connection of the provider. -/
def Call.Saves (provider : Provider) : Call → Prop
  | .saveConnectionWithDonations p _ _ _ _ _ => p = provider
  | .saveDonations p _ _ _ _ _ => p = provider
  | _ => False

/-- A call that does not save donations for the provider leaves no row
of the provider with a new mark. -/
theorem marks_perform {call : Call} (hcall : ¬ call.Saves provider)
    {r' : ConnectionRow} (hr' : r' ∈ (perform db call).connections)
    (hprovider : r'.provider = provider) :
    ∃ r ∈ db.connections, r.mark = r'.mark := by
  cases call with
  | saveConnectionWithDonations p user connection batch now draws =>
      rcases saveConnectionWithDonations_rows hr' with hr' | ⟨-, -, hmark⟩
      · exact ⟨r', hr', rfl⟩
      · have hkey : r'.key = (p, user) := congrArg Prod.fst hmark
        have hp : r'.provider = p := congrArg Prod.fst hkey
        exact absurd (hp.symm.trans hprovider) hcall
  | saveDonations p v batch origin acceptedAt draws =>
      rcases saveDonations_rows hr' with hr' | ⟨-, -, r, -, hu, he⟩
      · exact ⟨r', hr', rfl⟩
      · have hp : r'.provider = p := by
          rw [he]
          exact hu.1.1
        exact absurd (hp.symm.trans hprovider) hcall
  | setTokensIfVersion => exact keepsMarks_setTokensIfVersion r' hr'
  | disconnect => exact keepsMarks_delete r' hr'
  | requireReauthorizationIfVersion =>
      exact keepsMarks_requireReauthorizationIfVersion r' hr'
  | markConnectionErrorIfVersion =>
      exact keepsMarks_markConnectionErrorIfVersion r' hr'
  | saveDonateStreamConnection user widgetGroupUID widgetToken =>
      have hsame : (saveDonateStreamConnection user widgetGroupUID
          widgetToken db).2.connections = db.connections := by
        unfold saveDonateStreamConnection
        split <;> rfl
      exact ⟨r', hsame ▸ hr', rfl⟩
  | saveTourniquetConnection user widgetToken =>
      have hsame : (saveTourniquetConnection user widgetToken
          db).2.connections = db.connections := by
        unfold saveTourniquetConnection
        split <;> rfl
      exact ⟨r', hsame ▸ hr', rfl⟩
  | insertDonateStreamDonations user token donations origin time draws =>
      have hsame : (insertDonateStreamDonations user token donations origin
          time draws db).2.connections = db.connections :=
        insertWidgetDonations_connections
      exact ⟨r', hsame ▸ hr', rfl⟩
  | insertTourniquetDonations user token donations origin time draws =>
      have hsame : (insertTourniquetDonations user token donations origin
          time draws db).2.connections = db.connections :=
        insertWidgetDonations_connections
      exact ⟨r', hsame ▸ hr', rfl⟩
  | disconnectDonateStream | disconnectDonateStreamIfToken
  | disconnectTourniquet | alert => exact ⟨r', hr', rfl⟩

-- ===================================== steps

variable {s : State} {a : Action}

/-- The save that a step makes. -/
def Action.Performs (s : State) : Action → Call → Prop
  | .emit listenerID batch acceptedAt draws, call =>
      ∃ l, s.listeners.get? listenerID = some l
        ∧ call = .saveDonations l.provider l.connection.version batch .live
          acceptedAt draws
  | .syncHistory jobID (.ok batch) acceptedAt draws, call =>
      ∃ job, s.jobs.get? jobID = some job
        ∧ call = .saveDonations job.provider job.connection.version batch
          .recovery acceptedAt draws
  | .store performed, call => call = performed
  | _, _ => False

theorem keepsMarks_recordPermanentConnectionError {failure : Failure} :
    KeepsMarks db
      (recordPermanentConnectionError provider version failure db) := by
  unfold recordPermanentConnectionError
  split
  case isTrue => exact keepsMarks_markConnectionErrorIfVersion
  case isFalse => exact .refl db

/-- A listener that fails moves no checkpoint. -/
theorem keepsMarks_fail (l : Listener) (failure : Failure)
    (refresh : Except Failure Tokens) (db : Db) :
    KeepsMarks db (l.fail failure refresh db).2 := by
  unfold Listener.fail
  simp only
  split
  case isTrue => exact keepsMarks_recordPermanentConnectionError
  case isFalse =>
    split
    case isTrue => exact keepsMarks_requireReauthorizationIfVersion
    case isFalse =>
      cases refresh with
      | error refreshFailure =>
          simp only
          split
          case isTrue =>
            have hkeeps : KeepsMarks db (requireReauthorizationIfVersion
                l.provider l.connection.version db).2 :=
              keepsMarks_requireReauthorizationIfVersion
            split
            case h_1 he => rw [he] at hkeeps; exact hkeeps
            case h_2 he => rw [he] at hkeeps; exact hkeeps
          case isFalse => exact keepsMarks_recordPermanentConnectionError
      | ok tokens =>
          have hkeeps : KeepsMarks db (setTokensIfVersion l.provider
              l.connection.version tokens db).2 :=
            keepsMarks_setTokensIfVersion
          simp only
          split
          case h_1 he => rw [he] at hkeeps; exact hkeeps
          case h_2 he => rw [he] at hkeeps; exact hkeeps

theorem keepsMarks_record (l : Listener) (db : Db) :
    KeepsMarks db (l.record db).2 := by
  unfold Listener.record
  split
  case h_1 => exact .refl db
  case h_2 => exact keepsMarks_recordPermanentConnectionError

theorem keepsMarks_whileRunning {f : Listener → Db → Option Listener × Db}
    (hf : ∀ l db, KeepsMarks db (f l db).2) (l : Listener) (db : Db) :
    KeepsMarks db (l.whileRunning f db).2 := by
  unfold Listener.whileRunning
  split
  case isTrue => exact hf l db
  case isFalse => exact .refl db

theorem keepsMarks_goOn {listenerID : Nat}
    {f : Listener → Db → Option Listener × Db}
    (hf : ∀ l db, KeepsMarks db (f l db).2) :
    KeepsMarks s.db (s.goOn listenerID f).db := by
  cases hl : s.listeners.get? listenerID with
  | none =>
      rw [goOn_none hl]
      exact .refl s.db
  | some l =>
      rw [goOn_db hl]
      exact hf l s.db

theorem emit_db (l : Listener) (batch : DonationBatch) (acceptedAt : Time)
    (draws : List DonationDraw) (db : Db) :
    (l.emit batch acceptedAt draws db).2
      = (saveDonations l.provider l.connection.version batch .live
        acceptedAt draws db).2 := by
  unfold Listener.emit
  split
  case h_1 he => rw [he]
  case h_2 he => rw [he]

/-- A row after a step has the mark of one before, or the step saves
donations for its provider. -/
theorem step_marks {r' : ConnectionRow}
    (hr' : r' ∈ (step s a).db.connections) :
    (∃ r ∈ s.db.connections, r.mark = r'.mark)
      ∨ ∃ call, a.Performs s call ∧ call.Saves r'.provider
        ∧ (step s a).db = perform s.db call := by
  have hperformed : ∀ call, a.Performs s call →
      (step s a).db = perform s.db call →
      (∃ r ∈ s.db.connections, r.mark = r'.mark)
        ∨ ∃ call, a.Performs s call ∧ call.Saves r'.provider
          ∧ (step s a).db = perform s.db call := by
    intro call hcall he
    by_cases hsaves : call.Saves r'.provider
    · exact Or.inr ⟨call, hcall, hsaves, he⟩
    · exact Or.inl (marks_perform hsaves (he ▸ hr') rfl)
  cases a with
  | startListener listenerID service user =>
      have hsame : (step s (.startListener listenerID service user)).db
          = s.db := by
        simp only [step]
        split <;> rfl
      exact Or.inl ⟨r', hsame ▸ hr', rfl⟩
  | startHistory jobID service user =>
      have hsame : (step s (.startHistory jobID service user)).db
          = s.db := by
        simp only [step]
        split <;> rfl
      exact Or.inl ⟨r', hsame ▸ hr', rfl⟩
  | stopListener | stopHistory => exact Or.inl ⟨r', hr', rfl⟩
  | fail listenerID failure refresh =>
      exact Or.inl (keepsMarks_goOn (keepsMarks_whileRunning fun l db =>
        keepsMarks_fail l failure refresh db) r' hr')
  | record listenerID =>
      exact Or.inl (keepsMarks_goOn keepsMarks_record r' hr')
  | store call => exact hperformed call rfl rfl
  | emit listenerID batch acceptedAt draws =>
      cases hl : s.listeners.get? listenerID with
      | none =>
          have hsame : step s (.emit listenerID batch acceptedAt draws) = s :=
            goOn_none hl
          exact Or.inl ⟨r', hsame ▸ hr', rfl⟩
      | some l =>
          have hdb : (step s (.emit listenerID batch acceptedAt draws)).db
              = (l.whileRunning (fun l db => l.emit batch acceptedAt draws
                db) s.db).2 := goOn_db hl
          by_cases hrunning : l.unrecorded = none
          · have hrun : (l.whileRunning (fun l db => l.emit batch acceptedAt
                draws db) s.db).2 = (l.emit batch acceptedAt draws s.db).2 :=
              congrArg Prod.snd (if_pos hrunning)
            exact hperformed _ ⟨l, hl, rfl⟩
              (hdb.trans (hrun.trans (emit_db ..)))
          · have hrun : (l.whileRunning (fun l db => l.emit batch acceptedAt
                draws db) s.db).2 = s.db :=
              congrArg Prod.snd (if_neg hrunning)
            exact Or.inl ⟨r', hdb.trans hrun ▸ hr', rfl⟩
  | syncHistory jobID fetched acceptedAt draws =>
      cases hjob : s.jobs.get? jobID with
      | none =>
          have hsame : step s (.syncHistory jobID fetched acceptedAt draws)
              = s := by
            simp only [step, hjob]
          exact Or.inl ⟨r', hsame ▸ hr', rfl⟩
      | some job =>
          have hdb : (step s (.syncHistory jobID fetched acceptedAt
              draws)).db
              = syncConnectionHistory job fetched acceptedAt draws
                s.db := by
            simp only [step, hjob]
          cases fetched with
          | ok batch => exact hperformed _ ⟨job, hjob, rfl⟩ hdb
          | error failure =>
              exact Or.inl (keepsMarks_recordPermanentConnectionError r'
                (hdb ▸ hr'))

/-- A step keeps the invariants of the donations, and what is stored. -/
theorem Ingested.step (hi : Ingested s.db.alert) (a : Action) :
    Ingested (step s a).db.alert
      ∧ ∀ userID source sourceDonationID,
        Stored userID source sourceDonationID s.db.alert →
          Stored userID source sourceDonationID (step s a).db.alert := by
  rcases step_db s a with he | ⟨call, he⟩
  · rw [he]
    exact ⟨hi, fun _ _ _ h => h⟩
  · rw [he]
    refine ⟨hi.perform call, fun _ _ _ ⟨d, hd, hcolumns⟩ => ?_⟩
    exact ⟨d, (hasIncoming_perform hi call hd).1, hcolumns⟩

-- ===================================== tasks

/-- What a task knows of whose connection it is, the account, and the
checkpoint. -/
def Connection.mark (c : Connection) : UserID × String × Option String :=
  (c.userID, c.sourceUserID, c.historyCheckpoint)

/-- A connection that was read is one of the rows. -/
theorem readConnection_mem {c : Connection}
    (h : readConnection provider userID db = some c) :
    ∃ r ∈ db.connections, r.provider = provider ∧ r.toConnection = c := by
  obtain ⟨r, hr, rfl⟩ := List.mem_map.mp (List.mem_of_find?_eq_some h)
  obtain ⟨hr, hfilter⟩ := List.mem_filter.mp hr
  exact ⟨r, hr, (of_decide_eq_true hfilter).1, rfl⟩

/-- A listener that goes on: another one, or what the step made of it. -/
theorem goOn_listeners {listenerID : Nat}
    {f : Listener → Db → Option Listener × Db} {l' : Listener}
    (hl' : l' ∈ (s.goOn listenerID f).listeners) :
    l' ∈ s.listeners ∨ ∃ l next db', s.listeners.get? listenerID = some l
      ∧ f l s.db = (some next, db') ∧ l'.provider = next.provider
      ∧ l'.connection = next.connection := by
  cases hl : s.listeners.get? listenerID with
  | none =>
      rw [goOn_none hl] at hl'
      exact Or.inl hl'
  | some l =>
      unfold State.goOn at hl'
      rw [hl] at hl'
      simp only at hl'
      split at hl'
      case h_1 => exact Or.inl (Table.mem_delete.mp hl').1
      case h_2 next db' heq =>
        rw [Table.mem_update] at hl'
        obtain ⟨k, hk, he⟩ := hl'
        split at he
        case isFalse => exact Or.inl (he ▸ hk)
        case isTrue =>
          subst he
          exact Or.inr ⟨l, next, db', rfl, heq, rfl, rfl⟩

/-- A listener that fails has its checkpoint as before. -/
theorem fail_mark {l next : Listener} {failure : Failure}
    {refresh : Except Failure Tokens} {db' : Db}
    (h : l.fail failure refresh db = (some next, db')) :
    next.provider = l.provider
      ∧ next.connection.mark = l.connection.mark := by
  unfold Listener.fail at h
  simp only at h
  split at h
  case isTrue => cases h
  case isFalse =>
    split at h
    case isTrue => cases h
    case isFalse =>
      split at h
      case h_1 =>
        split at h
        case isFalse => cases h
        case isTrue =>
          split at h
          case h_1 => cases h; exact ⟨rfl, rfl⟩
          case h_2 => cases h
      case h_2 =>
        split at h
        case h_1 => cases h; exact ⟨rfl, rfl⟩
        case h_2 => cases h

theorem record_mark {l next : Listener} {db' : Db}
    (h : l.record db = (some next, db')) :
    next.provider = l.provider
      ∧ next.connection.mark = l.connection.mark := by
  unfold Listener.record at h
  split at h
  case h_1 => cases h; exact ⟨rfl, rfl⟩
  case h_2 => cases h

/-- A listener that stored a batch has the checkpoint of the batch. -/
theorem emit_mark {l next : Listener} {batch : DonationBatch}
    {acceptedAt : Time} {draws : List DonationDraw} {db' : Db}
    (h : l.emit batch acceptedAt draws db = (some next, db')) :
    next.provider = l.provider
      ∧ (next.connection.mark = l.connection.mark
        ∨ (Holds batch l.provider.source l.connection.userID db'.alert
          ∧ next.connection.mark = (l.connection.userID,
            l.connection.sourceUserID, batch.checkpoint))) := by
  have hatomic : AllOrNothing db batch l.provider.source
      l.connection.version.userID _ (saveDonations l.provider
        l.connection.version batch .live acceptedAt draws db) :=
    saveDonations_atomic batch .live acceptedAt draws db
  unfold Listener.emit at h
  split at h
  case h_1 he =>
    cases h
    rcases hatomic with ⟨e, he'⟩ | ⟨db'', he', hholds, -⟩
    · rw [he] at he'
      cases he'
    · rw [he] at he'
      cases he'
      exact ⟨rfl, Or.inr ⟨hholds, rfl⟩⟩
  case h_2 =>
    cases h
    exact ⟨rfl, Or.inl rfl⟩

/-- A listener after a step has the mark of one before, that of a row it
was started with, or the checkpoint of a batch that it stored. -/
theorem step_listener_marks {l' : Listener}
    (hl' : l' ∈ (step s a).listeners) :
    (∃ l ∈ s.listeners, l.provider = l'.provider
        ∧ l.connection.mark = l'.connection.mark)
      ∨ (∃ r ∈ s.db.connections, r.provider = l'.provider
        ∧ r.toConnection = l'.connection)
      ∨ ∃ listenerID batch acceptedAt draws l,
        a = .emit listenerID batch acceptedAt draws
        ∧ s.listeners.get? listenerID = some l
        ∧ l.provider = l'.provider
        ∧ Holds batch l.provider.source l.connection.userID
          (step s a).db.alert
        ∧ l'.connection.mark = (l.connection.userID,
          l.connection.sourceUserID, batch.checkpoint) := by
  cases a with
  | startListener listenerID service user =>
      cases hread : readConnection service user s.db with
      | none =>
          simp only [step, hread] at hl'
          exact Or.inl ⟨l', hl', rfl, rfl⟩
      | some connection =>
          simp only [step, hread] at hl'
          rcases Table.mem_insertOrIgnore.mp hl' with hl' | ⟨rfl, -⟩
          · exact Or.inl ⟨l', hl', rfl, rfl⟩
          · obtain ⟨r, hr, hp, hc⟩ := readConnection_mem hread
            exact Or.inr (Or.inl ⟨r, hr, hp, hc⟩)
  | startHistory jobID service user =>
      have hlisteners : (step s (.startHistory jobID service
          user)).listeners = s.listeners := by
        simp only [step]
        split <;> rfl
      exact Or.inl ⟨l', hlisteners ▸ hl', rfl, rfl⟩
  | stopListener listenerID =>
      exact Or.inl ⟨l', (Table.mem_delete.mp hl').1, rfl, rfl⟩
  | stopHistory | store => exact Or.inl ⟨l', hl', rfl, rfl⟩
  | syncHistory jobID fetched acceptedAt draws =>
      have hlisteners : (step s (.syncHistory jobID fetched acceptedAt
          draws)).listeners = s.listeners := by
        simp only [step]
        split <;> rfl
      exact Or.inl ⟨l', hlisteners ▸ hl', rfl, rfl⟩
  | record listenerID =>
      rcases goOn_listeners hl' with
        hl' | ⟨l, next, db', hl, hf, hp, hc⟩
      · exact Or.inl ⟨l', hl', rfl, rfl⟩
      · obtain ⟨hp', hm⟩ := record_mark hf
        exact Or.inl ⟨l, Table.mem_of_get? hl, (hp.trans hp').symm,
          (hc ▸ hm).symm⟩
  | fail listenerID failure refresh =>
      rcases goOn_listeners hl' with
        hl' | ⟨l, next, db', hl, hf, hp, hc⟩
      · exact Or.inl ⟨l', hl', rfl, rfl⟩
      · refine Or.inl ⟨l, Table.mem_of_get? hl, ?_⟩
        unfold Listener.whileRunning at hf
        split at hf
        case isTrue =>
          obtain ⟨hp', hm⟩ := fail_mark hf
          exact ⟨(hp.trans hp').symm, (hc ▸ hm).symm⟩
        case isFalse =>
          cases hf
          exact ⟨hp.symm, congrArg Connection.mark hc.symm⟩
  | emit listenerID batch acceptedAt draws =>
      rcases goOn_listeners hl' with
        hl' | ⟨l, next, db', hl, hf, hp, hc⟩
      · exact Or.inl ⟨l', hl', rfl, rfl⟩
      · have hdb : (step s (.emit listenerID batch acceptedAt draws)).db
            = db' := by
          have he := goOn_db hl (f := Listener.whileRunning fun l db =>
            l.emit batch acceptedAt draws db)
          rw [hf] at he
          exact he
        unfold Listener.whileRunning at hf
        split at hf
        case isFalse =>
          cases hf
          exact Or.inl ⟨l, Table.mem_of_get? hl, hp.symm,
            congrArg Connection.mark hc.symm⟩
        case isTrue =>
          obtain ⟨hp', hm | ⟨hholds, hm⟩⟩ := emit_mark hf
          · exact Or.inl ⟨l, Table.mem_of_get? hl, (hp.trans hp').symm,
              (hc ▸ hm).symm⟩
          · exact Or.inr (Or.inr ⟨listenerID, batch, acceptedAt, draws, l,
              rfl, hl, (hp.trans hp').symm, hdb ▸ hholds, hc ▸ hm⟩)

/-- A job after a step is one of before, or was started with a row. -/
theorem step_job_marks {job : HistoryJob} (hjob : job ∈ (step s a).jobs) :
    job ∈ s.jobs ∨ ∃ r ∈ s.db.connections, r.provider = job.provider
      ∧ r.toConnection = job.connection := by
  cases a with
  | startHistory jobID service user =>
      cases hread : readConnection service user s.db with
      | none =>
          simp only [step, hread] at hjob
          exact Or.inl hjob
      | some connection =>
          simp only [step, hread] at hjob
          rcases Table.mem_insertOrIgnore.mp hjob with hjob | ⟨rfl, -⟩
          · exact Or.inl hjob
          · exact Or.inr (readConnection_mem hread)
  | startListener listenerID service user =>
      have hjobs : (step s (.startListener listenerID service user)).jobs
          = s.jobs := by
        simp only [step]
        split <;> rfl
      exact Or.inl (hjobs ▸ hjob)
  | emit | fail | record => exact Or.inl (goOn_jobs ▸ hjob)
  | stopListener | store => exact Or.inl hjob
  | stopHistory jobID => exact Or.inl (Table.mem_delete.mp hjob).1
  | syncHistory jobID fetched acceptedAt draws =>
      simp only [step] at hjob
      split at hjob
      case h_1 => exact Or.inl hjob
      case h_2 => exact Or.inl (Table.mem_delete.mp hjob).1

end StreamBrew.Donations
