/-
Tasks act for the connection generation that they read, or not at all.

# What a task holds

Along every run, what a listener or a history job holds was the stored
connection at some moment of the run (`Read`): it was read then, or
stored then by the listener itself. By the generation rule a generation
is stored with one content only, so a task whose version is still the
stored one holds the stored credentials too. Two connects must not get
the same connect time, which is the only assumption.

# What a task does

A step of a task is at most one call, guarded by the version that the
task holds (`step_guarded`), and a guarded call changes nothing while
another version is stored (`perform_stale`).
-/
import StreamBrew.Donations.Proofs.Batch
import StreamBrew.Donations.Proofs.Connections

namespace StreamBrew.Donations

open Relational Generation
open Alert (UserID Time)

variable {l next : Listener} {c : Connection} {listenerID : Nat} {a : Action}

variable {provider : Provider} {userID : UserID} {db db' : Db}
  {version : ConnectionVersion} {s : State}

-- ================================== one call

/-- At most one call, guarded by a generation. -/
def Guarded (provider : Provider) (version : ConnectionVersion)
    (db db' : Db) : Prop :=
  db' = db ∨ ∃ call : Call, call.guard = some (provider, version)
    ∧ db' = perform db call

theorem guarded_recordPermanentConnectionError {failure : Failure} :
    Guarded provider version db
      (recordPermanentConnectionError provider version failure db) := by
  unfold recordPermanentConnectionError
  split
  case isTrue =>
    exact Or.inr ⟨.markConnectionErrorIfVersion provider version, rfl, rfl⟩
  case isFalse => exact Or.inl rfl

theorem guarded_emit (l : Listener) (batch : DonationBatch)
    (acceptedAt : Time) (draws : List DonationDraw) (db : Db) :
    Guarded l.provider l.connection.version db
      (l.emit batch acceptedAt draws db).2 := by
  right
  refine ⟨.saveDonations l.provider l.connection.version batch .live
    acceptedAt draws, rfl, ?_⟩
  show (l.emit batch acceptedAt draws db).2 = (saveDonations ..).2
  unfold Listener.emit
  split
  case h_1 heq => rw [heq]
  case h_2 heq => rw [heq]

/-- So is what a failure does. -/
theorem guarded_fail (l : Listener) (failure : Failure)
    (refresh : Except Failure Tokens) (db : Db) :
    Guarded l.provider l.connection.version db
      (l.fail failure refresh db).2 := by
  unfold Listener.fail
  simp only
  split
  case isTrue => exact guarded_recordPermanentConnectionError
  case isFalse =>
    split
    case isTrue =>
      exact Or.inr ⟨.requireReauthorizationIfVersion l.provider
        l.connection.version, rfl, rfl⟩
    case isFalse =>
      split
      case h_1 refreshFailure =>
        split
        case isFalse => exact guarded_recordPermanentConnectionError
        case isTrue =>
          right
          refine ⟨.requireReauthorizationIfVersion l.provider
            l.connection.version, rfl, ?_⟩
          show _ = (requireReauthorizationIfVersion ..).2
          split
          case h_1 heq => rw [heq]
          case h_2 heq => rw [heq]
      case h_2 tokens =>
        right
        refine ⟨.setTokensIfVersion l.provider l.connection.version tokens,
          rfl, ?_⟩
        show _ = (setTokensIfVersion ..).2
        split
        case h_1 heq => rw [heq]
        case h_2 heq => rw [heq]

theorem guarded_record (l : Listener) (db : Db) :
    Guarded l.provider l.connection.version db (l.record db).2 := by
  unfold Listener.record
  split
  case h_1 => exact Or.inl rfl
  case h_2 => exact guarded_recordPermanentConnectionError

theorem guarded_whileRunning {f : Listener → Db → Option Listener × Db}
    (h : ∀ l db, Guarded l.provider l.connection.version db (f l db).2)
    (l : Listener) (db : Db) :
    Guarded l.provider l.connection.version db
      (l.whileRunning f db).2 := by
  unfold Listener.whileRunning
  split
  case isTrue => exact h l db
  case isFalse => exact Or.inl rfl

theorem guarded_syncConnectionHistory (job : HistoryJob)
    (fetched : Except Failure DonationBatch) (acceptedAt : Time)
    (draws : List DonationDraw) (db : Db) :
    Guarded job.provider job.connection.version db
      (syncConnectionHistory job fetched acceptedAt draws db) := by
  unfold syncConnectionHistory
  split
  case h_1 => exact guarded_recordPermanentConnectionError
  case h_2 batch =>
    exact Or.inr ⟨.saveDonations job.provider job.connection.version batch
      .recovery acceptedAt draws, rfl, rfl⟩

-- ================================== one step

/-- The connection that the task of a step holds. -/
def Action.holds (s : State) : Action → Option (Provider × Connection)
  | .emit listenerID _ _ _ | .fail listenerID _ _ | .record listenerID =>
      (s.listeners.get? listenerID).map fun l => (l.provider, l.connection)
  | .syncHistory jobID _ _ _ =>
      (s.jobs.get? jobID).map fun job => (job.provider, job.connection)
  | _ => none

theorem goOn_none {f : Listener → Db → Option Listener × Db}
    (hl : s.listeners.get? listenerID = none) :
    s.goOn listenerID f = s := by
  unfold State.goOn
  rw [hl]

theorem goOn_db {f : Listener → Db → Option Listener × Db}
    (hl : s.listeners.get? listenerID = some l) :
    (s.goOn listenerID f).db = (f l s.db).2 := by
  unfold State.goOn
  rw [hl]
  simp only
  split
  case h_1 heq => rw [heq]
  case h_2 heq => rw [heq]

/-- A step of a task is at most one call, guarded by what it holds. -/
theorem step_guarded (hholds : a.holds s = some (provider, c)) :
    Guarded provider c.version s.db (step s a).db := by
  cases a with
  | emit listenerID batch acceptedAt draws =>
      obtain ⟨l, hl, he⟩ := Option.map_eq_some_iff.mp hholds
      cases he
      show Guarded _ _ _ (s.goOn listenerID _).db
      rw [goOn_db hl]
      exact guarded_whileRunning
        (fun l db => guarded_emit l batch acceptedAt draws db) l s.db
  | fail listenerID failure refresh =>
      obtain ⟨l, hl, he⟩ := Option.map_eq_some_iff.mp hholds
      cases he
      show Guarded _ _ _ (s.goOn listenerID _).db
      rw [goOn_db hl]
      exact guarded_whileRunning
        (fun l db => guarded_fail l failure refresh db) l s.db
  | record listenerID =>
      obtain ⟨l, hl, he⟩ := Option.map_eq_some_iff.mp hholds
      cases he
      show Guarded _ _ _ (s.goOn listenerID _).db
      rw [goOn_db hl]
      exact guarded_record l s.db
  | syncHistory jobID fetched acceptedAt draws =>
      obtain ⟨job, hjob, he⟩ := Option.map_eq_some_iff.mp hholds
      cases he
      unfold step
      simp only
      rw [hjob]
      exact guarded_syncConnectionHistory job fetched acceptedAt draws s.db
  | _ => cases hholds

/-- A step is at most one store call. -/
theorem step_db (s : State) (a : Action) :
    (step s a).db = s.db ∨ ∃ call, (step s a).db = perform s.db call := by
  cases hholds : a.holds s with
  | some held =>
      obtain ⟨provider, c⟩ := held
      exact (step_guarded hholds).imp_right fun ⟨call, _, he⟩ => ⟨call, he⟩
  | none =>
      cases a with
      | startListener listenerID service user =>
          left
          unfold step
          simp only
          split
          case h_1 => rfl
          case h_2 => rfl
      | startHistory jobID service user =>
          left
          unfold step
          simp only
          split
          case h_1 => rfl
          case h_2 => rfl
      | stopListener => exact Or.inl rfl
      | stopHistory => exact Or.inl rfl
      | store call => exact Or.inr ⟨call, rfl⟩
      | emit listenerID =>
          have hl := Option.map_eq_none_iff.mp hholds
          exact Or.inl (congrArg State.db (goOn_none hl))
      | fail listenerID =>
          have hl := Option.map_eq_none_iff.mp hholds
          exact Or.inl (congrArg State.db (goOn_none hl))
      | record listenerID =>
          have hl := Option.map_eq_none_iff.mp hholds
          exact Or.inl (congrArg State.db (goOn_none hl))
      | syncHistory jobID =>
          have hjob := Option.map_eq_none_iff.mp hholds
          left
          unfold step
          simp only
          rw [hjob]

-- ============================== what is held

/-- The register of a user along a run. -/
def State.register (provider : Provider) (userID : UserID) (s : State) :
    Option (Stamped Time ProviderConnection) :=
  s.db.register provider userID

/-- The connect times that a step draws for a user. -/
def connects (provider : Provider) (userID : UserID) (s : State)
    (a : Action) : List Time :=
  connectedAt provider userID s.db (step s a).db

theorem step_register (s : State) (a : Action) :
    Step (connects provider userID s a) (s.register provider userID)
      ((step s a).register provider userID) := by
  show Renews provider userID s.db (step s a).db
  rcases step_db s a with he | ⟨call, he⟩
  · rw [he]
    exact .of_eq rfl
  · rw [he]
    exact renews_perform call

/-- The generation was the stored one at some moment of the run. -/
def Read (provider : Provider) (c : Connection) (acts : List Action) :
    Prop :=
  c.stamped ∈ heldAlong step (State.register provider c.userID)
    State.init acts

theorem Read.snoc {acts : List Action}
    (h : Read provider c acts) (a : Action) :
    Read provider c (acts ++ [a]) := by
  unfold Read
  rw [heldAlong_snoc]
  exact Or.inl h

theorem read_of_register {acts : List Action}
    (h : c.stamped ∈ (Run.run step State.init acts).register provider
      c.userID) : Read provider c acts :=
  ⟨acts, List.prefix_rfl, h⟩

/-- A row of the table is what the register of its user holds. -/
theorem register_of_mem {r : ConnectionRow} (hr : r ∈ db.connections) :
    r.toConnection.stamped ∈ db.register r.provider r.userID := by
  unfold Db.register
  have hget : db.connections.get? (r.provider, r.userID) = some r :=
    Table.get?_eq_some.mpr ⟨hr, rfl⟩
  rw [hget]
  rfl

theorem readConnection_register
    (h : readConnection provider userID db = some c) :
    c.stamped ∈ db.register provider c.userID := by
  have hmem := List.mem_of_find?_eq_some h
  obtain ⟨r, hr, rfl⟩ := List.mem_map.mp hmem
  obtain ⟨hr, hfilter⟩ := List.mem_filter.mp hr
  have hprovider : r.provider = provider :=
    (of_decide_eq_true hfilter).1
  rw [← hprovider]
  exact register_of_mem hr

/-- Stored tokens are the content of the next version. -/
theorem setTokensIfVersion_register {tokens : Tokens}
    (h : setTokensIfVersion provider version tokens db = (.ok true, db')) :
    ({ epoch := version.connectedAt, version := version.tokenVersion + 1
       content := { tokens with sourceUserID := version.sourceUserID } } :
      Stamped Time ProviderConnection)
      ∈ db'.register provider version.userID := by
  unfold setTokensIfVersion at h
  split at h
  case isTrue => cases h
  case isFalse =>
    unfold Db.updateIfVersion at h
    injection h with hfound hdb
    injection hfound with hfound
    obtain ⟨r, hr, hu⟩ := of_decide_eq_true hfound
    obtain ⟨⟨hprovider, hversion⟩, -⟩ := id hu
    subst hprovider hversion
    have hget : db.connections.get? (r.provider, r.userID) = some r :=
      Table.get?_eq_some.mpr ⟨hr, rfl⟩
    rw [← hdb]
    show _ ∈ Option.map _ (Table.get? _ (r.provider, r.userID))
    rw [Table.get?_update, hget, Option.map_some, if_pos hu]
    rfl

/-- What a listener holds after a call: what it held, or what it has
stored. -/
def Follows (l next : Listener) (db' : Db) : Prop :=
  next.provider = l.provider
    ∧ next.connection.userID = l.connection.userID
    ∧ (next.connection.stamped = l.connection.stamped
      ∨ next.connection.stamped
        ∈ db'.register l.provider l.connection.userID)

theorem follows_emit {batch : DonationBatch}
    {acceptedAt : Time} {draws : List DonationDraw}
    (h : l.emit batch acceptedAt draws db = (some next, db')) :
    Follows l next db' := by
  unfold Listener.emit at h
  split at h
  case h_1 => cases h; exact ⟨rfl, rfl, Or.inl rfl⟩
  case h_2 => cases h; exact ⟨rfl, rfl, Or.inl rfl⟩

/-- A listener that fails goes on with refreshed tokens at most. -/
theorem follows_fail {failure : Failure} {refresh : Except Failure Tokens}
    (h : l.fail failure refresh db = (some next, db')) :
    Follows l next db' := by
  unfold Listener.fail at h
  simp only at h
  split at h
  case isTrue => cases h
  case isFalse =>
    split at h
    case isTrue => cases h
    case isFalse =>
      split at h
      case h_1 =>
        split at h
        case isFalse => cases h
        case isTrue =>
          split at h
          case h_1 => cases h; exact ⟨rfl, rfl, Or.inl rfl⟩
          case h_2 => cases h
      case h_2 tokens =>
        split at h
        case h_1 heq =>
          cases h
          exact ⟨rfl, rfl, Or.inr (setTokensIfVersion_register heq)⟩
        case h_2 => cases h

theorem follows_record
    (h : l.record db = (some next, db')) : Follows l next db' := by
  unfold Listener.record at h
  split at h
  case h_1 => cases h; exact ⟨rfl, rfl, Or.inl rfl⟩
  case h_2 => cases h

theorem follows_whileRunning {f : Listener → Db → Option Listener × Db}
    (hf : ∀ next db', f l db = (some next, db') → Follows l next db')
    (h : l.whileRunning f db = (some next, db')) :
    Follows l next db' := by
  unfold Listener.whileRunning at h
  split at h
  case isTrue => exact hf next db' h
  case isFalse => cases h; exact ⟨rfl, rfl, Or.inl rfl⟩

/-- Where a listener of the next state comes from. -/
theorem mem_goOn {f : Listener → Db → Option Listener × Db}
    (hf : ∀ l next db', f l s.db = (some next, db') → Follows l next db')
    {l' : Listener} (hl' : l' ∈ (s.goOn listenerID f).listeners) :
    ∃ l ∈ s.listeners, Follows l l' (s.goOn listenerID f).db := by
  cases hl : s.listeners.get? listenerID with
  | none =>
      rw [goOn_none hl] at hl' ⊢
      exact ⟨l', hl', rfl, rfl, Or.inl rfl⟩
  | some l =>
      rw [goOn_db hl]
      unfold State.goOn at hl'
      rw [hl] at hl'
      simp only at hl'
      split at hl'
      case h_1 =>
        exact ⟨l', (Table.mem_delete.mp hl').1, rfl, rfl, Or.inl rfl⟩
      case h_2 next db' heq =>
        rw [heq]
        rw [Table.mem_update] at hl'
        obtain ⟨k, hk, he⟩ := hl'
        split at he
        case isFalse => exact ⟨k, hk, he ▸ ⟨rfl, rfl, Or.inl rfl⟩⟩
        case isTrue =>
          subst he
          exact ⟨l, Table.mem_of_get? hl, hf l next db' heq⟩

/-- A listener of the next state goes on from one of this state, or has
just been started. -/
theorem step_listeners {l' : Listener} (hl' : l' ∈ (step s a).listeners) :
    (∃ l ∈ s.listeners, Follows l l' (step s a).db)
      ∨ l'.connection.stamped
        ∈ (step s a).db.register l'.provider l'.connection.userID := by
  have hstays : ∀ db' : Db, l' ∈ s.listeners →
      (∃ l ∈ s.listeners, Follows l l' db')
        ∨ l'.connection.stamped
          ∈ db'.register l'.provider l'.connection.userID :=
    fun _ h => Or.inl ⟨l', h, rfl, rfl, Or.inl rfl⟩
  cases a with
  | startListener listenerID service user =>
      unfold step at hl' ⊢
      simp only at hl' ⊢
      split at hl'
      case h_1 => exact hstays _ hl'
      case h_2 c hread =>
        rcases Table.mem_insertOrIgnore.mp hl' with hl' | ⟨rfl, -⟩
        · exact hstays _ hl'
        · exact Or.inr (readConnection_register hread)
  | emit listenerID batch acceptedAt draws =>
      exact Or.inl (mem_goOn (fun l next db' h =>
        follows_whileRunning (fun next db' => follows_emit) h) hl')
  | fail listenerID failure refresh =>
      exact Or.inl (mem_goOn (fun l next db' h =>
        follows_whileRunning (fun next db' => follows_fail) h) hl')
  | record listenerID =>
      exact Or.inl (mem_goOn (fun l next db' => follows_record) hl')
  | stopListener listenerID => exact hstays _ (Table.mem_delete.mp hl').1
  | startHistory jobID service user =>
      unfold step at hl' ⊢
      simp only at hl' ⊢
      split at hl'
      case h_1 => exact hstays _ hl'
      case h_2 => exact hstays _ hl'
  | syncHistory jobID fetched acceptedAt draws =>
      unfold step at hl' ⊢
      simp only at hl' ⊢
      split at hl'
      case h_1 => exact hstays _ hl'
      case h_2 => exact hstays _ hl'
  | stopHistory jobID => exact hstays _ hl'
  | store call => exact hstays _ hl'

theorem goOn_jobs {f : Listener → Db → Option Listener × Db} :
    (s.goOn listenerID f).jobs = s.jobs := by
  unfold State.goOn
  split
  case h_1 => rfl
  case h_2 =>
    split
    case h_1 => rfl
    case h_2 => rfl

/-- A job of the next state is one of this state, or was just read. -/
theorem step_jobs {job : HistoryJob} (hjob : job ∈ (step s a).jobs) :
    job ∈ s.jobs ∨ job.connection.stamped
      ∈ (step s a).db.register job.provider job.connection.userID := by
  cases a with
  | startHistory jobID service user =>
      unfold step at hjob ⊢
      simp only at hjob ⊢
      split at hjob
      case h_1 => exact Or.inl hjob
      case h_2 c hread =>
        rcases Table.mem_insertOrIgnore.mp hjob with hjob | ⟨rfl, -⟩
        · exact Or.inl hjob
        · exact Or.inr (readConnection_register hread)
  | syncHistory jobID fetched acceptedAt draws =>
      unfold step at hjob
      simp only at hjob
      split at hjob
      case h_1 => exact Or.inl hjob
      case h_2 => exact Or.inl (Table.mem_delete.mp hjob).1
  | stopHistory jobID => exact Or.inl (Table.mem_delete.mp hjob).1
  | startListener listenerID service user =>
      unfold step at hjob
      simp only at hjob
      split at hjob
      case h_1 => exact Or.inl hjob
      case h_2 => exact Or.inl hjob
  | emit => exact Or.inl (goOn_jobs ▸ hjob)
  | fail => exact Or.inl (goOn_jobs ▸ hjob)
  | record => exact Or.inl (goOn_jobs ▸ hjob)
  | stopListener => exact Or.inl hjob
  | store => exact Or.inl hjob

/-- What every task holds was the stored connection at some moment. -/
structure Held (acts : List Action) (s : State) : Prop where
  listeners : ∀ l ∈ s.listeners, Read l.provider l.connection acts
  jobs : ∀ job ∈ s.jobs, Read job.provider job.connection acts

/-- On every run. -/
theorem held_run (acts : List Action) :
    Held acts (Run.run step State.init acts) := by
  induction acts using List.reverseRecOn with
  | nil =>
      exact ⟨fun l hl => absurd hl Table.not_mem_empty,
        fun job hjob => absurd hjob Table.not_mem_empty⟩
  | append_singleton acts a ih =>
      have hrun : Run.run step State.init (acts ++ [a])
          = step (Run.run step State.init acts) a := by
        rw [Run.run_append, Run.run_cons, Run.run_nil]
      have hstored : ∀ (service : Provider) (c : Connection),
          c.stamped ∈ (step (Run.run step State.init acts) a).db.register
            service c.userID → Read service c (acts ++ [a]) := by
        intro service c hc
        rw [← hrun] at hc
        exact read_of_register hc
      rw [hrun]
      constructor
      case listeners =>
        intro l' hl'
        rcases step_listeners hl' with ⟨l, hl, hprovider, huser, hc⟩ | hc
        · rcases hc with hsame | hc
          · have hread := (ih.listeners l hl).snoc a
            unfold Read at hread ⊢
            rw [hprovider, huser, hsame]
            exact hread
          · refine hstored _ _ ?_
            rw [hprovider, huser]
            exact hc
        · exact hstored _ _ hc
      case jobs =>
        intro job hjob
        rcases step_jobs hjob with hjob | hc
        · exact (ih.jobs job hjob).snoc a
        · exact hstored _ _ hc

/-- What the task of a step holds was the stored connection at some
moment. -/
theorem read_of_holds {acts : List Action}
    (hholds : a.holds (Run.run step State.init acts)
      = some (provider, c)) : Read provider c acts := by
  have hheld := held_run acts
  cases a with
  | emit | fail | record =>
      obtain ⟨l, hl, he⟩ := Option.map_eq_some_iff.mp hholds
      cases he
      exact hheld.listeners l (Table.mem_of_get? hl)
  | syncHistory =>
      obtain ⟨job, hjob, he⟩ := Option.map_eq_some_iff.mp hholds
      cases he
      exact hheld.jobs job (Table.mem_of_get? hjob)
  | _ => cases hholds

-- ============================== transactions

/-- Every donation of the batch is stored. -/
def Holds (batch : DonationBatch) (source : Alert.Source)
    (userID : UserID) (alert : Alert.Db) : Prop :=
  ∀ d ∈ batch.donations, Stored userID source d.sourceDonationID alert

/-- The call failed and changed nothing, or it stored the batch and a
connection row as `P` says. -/
def AllOrNothing (db : Db) (batch : DonationBatch) (source : Alert.Source)
    (userID : UserID) (P : ConnectionRow → Prop)
    (outcome : Outcome Unit) : Prop :=
  (∃ e, outcome = (.error e, db)) ∨ ∃ db', outcome = (.ok (), db')
    ∧ Holds batch source userID db'.alert ∧ ∃ r ∈ db'.connections, P r

/-- A commit writes everything or nothing. -/
theorem commit_atomic {written : Db} {batch : DonationBatch}
    {origin : IngestionOrigin} {acceptedAt : Time}
    {draws : List DonationDraw} {source : Alert.Source}
    {P : ConnectionRow → Prop} (hrow : ∃ r ∈ written.connections, P r) :
    AllOrNothing db batch source userID P
      (db.commit written (insertDonations source userID batch.donations
        origin acceptedAt draws db.alert)) := by
  cases hins : insertDonations source userID batch.donations origin
      acceptedAt draws db.alert with
  | error e => exact Or.inl ⟨e, rfl⟩
  | ok alert =>
      exact Or.inr ⟨_, rfl, (turns_of_insertDonations hins).2, hrow⟩

/-- The donations and the checkpoint of a batch are stored together or
not at all. -/
theorem saveDonations_atomic (batch : DonationBatch)
    (origin : IngestionOrigin) (acceptedAt : Time)
    (draws : List DonationDraw) (db : Db) :
    AllOrNothing db batch provider.source version.userID
      (fun r => r.Is provider version ∧ ∀ checkpoint ∈ batch.checkpoint,
        r.historyCheckpoint = some checkpoint)
      (saveDonations provider version batch origin acceptedAt draws
        db) := by
  unfold saveDonations
  split
  case isFalse => exact Or.inl ⟨_, rfl⟩
  case isTrue hcurrent =>
    obtain ⟨r, hr, hu⟩ := hcurrent
    refine commit_atomic ⟨{ r with
      historyCheckpoint := batch.checkpoint <|> r.historyCheckpoint },
      ?_, hu.1, ?_⟩
    · rw [Table.mem_update]
      exact ⟨r, hr, if_pos hu⟩
    · intro checkpoint hcheckpoint
      show (batch.checkpoint <|> r.historyCheckpoint) = some checkpoint
      rw [Option.mem_def.mp hcheckpoint]
      rfl

/-- The same of the batch that comes with a connection. -/
theorem saveConnectionWithDonations_atomic
    (connection : ProviderConnection) (batch : DonationBatch) (now : Time)
    (draws : List DonationDraw) (db : Db) :
    AllOrNothing db batch provider.source userID
      (fun r => r.key = (provider, userID)
        ∧ r.historyCheckpoint = batch.checkpoint)
      (saveConnectionWithDonations provider userID connection batch now
        draws db) := by
  unfold saveConnectionWithDonations
  split
  case h_1 => exact Or.inl ⟨_, rfl⟩
  case h_2 written hsave =>
    refine commit_atomic ?_
    unfold Db.saveConnection at hsave
    split at hsave
    case isTrue => cases hsave
    case isFalse =>
      injection hsave with hsave
      rw [← hsave]
      cases hget : db.connections.get? (provider, userID) with
      | none =>
          refine ⟨_, Table.mem_upsert.mpr (Or.inl ⟨rfl, fun r hr => ?_⟩),
            rfl, rfl⟩
          exact Table.get?_eq_none.mp hget r hr
      | some r =>
          obtain ⟨hr, hkey⟩ := Table.get?_eq_some.mp hget
          exact ⟨_, Table.mem_upsert.mpr (Or.inr ⟨r, hr, if_pos hkey⟩),
            hkey, rfl⟩

-- ================================= the fence

/-- In every run whose connects get distinct connect times: what a task
holds was the stored connection at some moment; while its version is
stored it is stored with the account and tokens the task holds; all the
task does is at most one call guarded by that version; such a call
changes nothing at all while another version, or none, is stored; and a
batch is stored with its checkpoint or not at all. -/
theorem generation_fenced {acts : List Action} {a : Action}
    {c : Connection}
    (hholds : a.holds (Run.run step State.init acts) = some (provider, c))
    (hdistinct : (Run.log step (connects provider c.userID) State.init
      acts).Nodup) :
    (∃ before, before <+: acts
      ∧ ∃ r ∈ (Run.run step State.init before).db.connections,
        r.key = (provider, c.userID) ∧ r.toConnection.stamped = c.stamped)
    ∧ (∀ r ∈ (Run.run step State.init acts).db.connections,
        r.Is provider c.version → r.toConnection.stamped = c.stamped)
    ∧ Guarded provider c.version (Run.run step State.init acts).db
        (step (Run.run step State.init acts) a).db
    ∧ (∀ call : Call, call.guard = some (provider, c.version) →
        ¬ Current provider c.version (Run.run step State.init acts).db →
        perform (Run.run step State.init acts).db call
          = (Run.run step State.init acts).db)
    ∧ (∀ batch origin acceptedAt draws,
        AllOrNothing (Run.run step State.init acts).db batch
          provider.source c.userID
          (fun r => r.Is provider c.version
            ∧ ∀ checkpoint ∈ batch.checkpoint,
              r.historyCheckpoint = some checkpoint)
          (saveDonations provider c.version batch origin acceptedAt draws
            (Run.run step State.init acts).db))
    ∧ (∀ connection batch now draws,
        AllOrNothing (Run.run step State.init acts).db batch
          provider.source c.userID
          (fun r => r.key = (provider, c.userID)
            ∧ r.historyCheckpoint = batch.checkpoint)
          (saveConnectionWithDonations provider c.userID connection batch
            now draws (Run.run step State.init acts).db)) := by
  have hread := read_of_holds hholds
  refine ⟨?_, ?_, step_guarded hholds,
    fun call hguard hstale => perform_stale hguard hstale,
    fun batch origin acceptedAt draws =>
      saveDonations_atomic batch origin acceptedAt draws _,
    fun connection batch now draws =>
      saveConnectionWithDonations_atomic connection batch now draws _⟩
  · obtain ⟨before, hbefore, hc⟩ := hread
    obtain ⟨r, hr, he⟩ := Option.map_eq_some_iff.mp hc
    obtain ⟨hmem, hkey⟩ := Table.get?_eq_some.mp hr
    exact ⟨before, hbefore, r, hmem, hkey, he⟩
  · intro r hr his
    obtain ⟨rfl, hversion⟩ := his
    have huser : r.userID = c.userID :=
      congrArg ConnectionVersion.userID hversion
    have hstored : Read r.provider r.toConnection acts :=
      read_of_register (register_of_mem hr)
    unfold Read at hstored
    rw [huser] at hstored
    exact run_generation_unique step_register rfl hdistinct hstored hread
      (congrArg ConnectionVersion.connectedAt hversion)
      (congrArg ConnectionVersion.tokenVersion hversion)

/-- A history job reads the connection of a user, who then connects
another account. -/
def reconnectingRun : List Action :=
  [.store (.saveConnectionWithDonations .streamlabs 1
      { accessToken := "a", refreshToken := "r", sourceUserID := "old" }
      { donations := [] } 0 []),
    .startHistory 7 .streamlabs 1,
    .store (.saveConnectionWithDonations .streamlabs 1
      { accessToken := "b", refreshToken := "s", sourceUserID := "new" }
      { donations := [] } 0 [])]

/-- The connection that the job has read. -/
def replacedConnection : Connection where
  userID := 1
  sourceUserID := "old"
  connectedAt := 0
  accessToken := "a"
  refreshToken := "r"
  tokenVersion := 1
  historyCheckpoint := none

/-- The history of the old account no longer moves the checkpoint. -/
theorem generation_fenced_reconnectingRun :
    perform (Run.run step State.init reconnectingRun).db
        (.saveDonations .streamlabs replacedConnection.version
          { donations := [], checkpoint := some "9" } .recovery 0 [])
      = (Run.run step State.init reconnectingRun).db := by
  have hholds : (Action.syncHistory 7
      (.ok { donations := [], checkpoint := some "9" }) 0 []).holds
        (Run.run step State.init reconnectingRun)
      = some (.streamlabs, replacedConnection) := by decide
  have hdistinct : (Run.log step
      (connects .streamlabs replacedConnection.userID) State.init
      reconnectingRun).Nodup := by decide
  exact (generation_fenced hholds hdistinct).2.2.2.1 _ rfl (by decide)

end StreamBrew.Donations
