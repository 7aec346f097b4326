/-
The supervisor of an integration keeps one listener for each user, and
knows a refresh of that listener from a replacement.

# The invariant

An entry is dropped only together with its own listener, so the rule of
rosters gives at most one listener for each user. A listener publishes a
version before it saves it (`ListenerTask.Coherent`), and what is
published only grows, so no snapshot of what the listener has written is
taken for a replacement.

# The runs

The connections a listener has read or written are held along the run,
as are those of a snapshot. With distinct connect times a snapshot that
the refresh does not take for a replacement is one that the listener
wrote, unless the listener has still to save the version it published;
that save finds another version stored and ends it.
-/
import StreamBrew.Donations.Supervisor
import StreamBrew.Donations.Proofs.Generations

namespace StreamBrew.Donations

open Relational Supervisor Generation
open Alert (UserID Time)

variable {acts : List SupervisorAction} {userID : UserID} {c : Connection}
  {t : ListenerTask} {listener : RunningListener} {id : Nat}
  {s' : Integration} {snapshot : List Connection}

variable {provider : Provider} {db db' : Db}

-- ================================= listeners

/-- A task agrees with the connection it was started for, and is at most
one published version ahead of what it has saved. -/
structure ListenerTask.Coherent (provider : Provider)
    (task : ListenerTask) : Prop where
  provider : task.listener.provider = provider
  userID : task.listener.connection.userID = task.connection.userID
  sourceUserID : task.listener.connection.sourceUserID
    = task.connection.sourceUserID
  connectedAt : task.listener.connection.connectedAt
    = task.connection.connectedAt
  started : task.connection.tokenVersion
    ≤ task.listener.connection.tokenVersion
  published : task.tokenVersion = task.listener.connection.tokenVersion
    ∨ task.tokenVersion = task.listener.connection.tokenVersion + 1
      ∧ (task.unsaved.isSome = true ∨ task.returned = true)
  unsaved : task.unsaved.isSome = true →
    task.tokenVersion = task.listener.connection.tokenVersion + 1
  completed : task.completed = true → task.returned = true

/-- Publishing and saving are together what `listen` does when an error
makes it refresh its tokens. -/
theorem save_publish {task : ListenerTask} {failure : Failure}
    (h : task.refreshes failure = true) (tokens : Tokens) (db : Db) :
    (task.publish tokens).save .answered db
      = (({ task.publish tokens with unsaved := none }).goOn
          (task.listener.fail failure (.ok tokens) db).1,
        (task.listener.fail failure (.ok tokens) db).2) := by
  unfold ListenerTask.refreshes at h
  obtain ⟨hauthorized, hrefreshed⟩ := of_decide_eq_true h
  unfold Listener.fail ListenerTask.save
  rcases hstored : setTokensIfVersion task.listener.provider
    task.listener.connection.version tokens db with ⟨_ | (_ | _), db'⟩
  all_goals
    simp only [hauthorized, Bool.not_true, Bool.false_eq_true, if_false,
      if_neg hrefreshed, ListenerTask.publish, hstored]
    rfl

/-- What a step of a listener does to its task. -/
structure Advances (provider : Provider) (task next : ListenerTask)
    (db' : Db) : Prop where
  coherent : next.Coherent provider
  connection : next.connection = task.connection
  cancelled : next.cancelled = task.cancelled
  completed : next.completed = task.completed
  tokenVersion : task.tokenVersion ≤ next.tokenVersion
  /-- What it holds is what it held, or what it has just stored. -/
  held : next.listener.connection.stamped
      = task.listener.connection.stamped
    ∨ next.listener.connection.stamped
        ∈ db'.register provider task.connection.userID
      ∧ next.listener.connection.tokenVersion
        = task.listener.connection.tokenVersion + 1

variable {task : ListenerTask}

/-- The listener has the same generation as before. -/
def Keeps (l next : Listener) : Prop :=
  next.provider = l.provider
    ∧ next.connection.userID = l.connection.userID
    ∧ next.connection.stamped = l.connection.stamped

theorem Keeps.refl (l : Listener) : Keeps l l := ⟨rfl, rfl, rfl⟩

theorem Advances.refl (h : task.Coherent provider) :
    Advances provider task task db' :=
  ⟨h, rfl, rfl, rfl, Nat.le_refl _, Or.inl rfl⟩

/-- A step that is not about refreshing tokens. -/
theorem Advances.goOn (h : task.Coherent provider)
    (hactive : task.returned = false) (hsaved : task.unsaved = none)
    {next : Option Listener} (hnext : ∀ l ∈ next, Keeps task.listener l) :
    Advances provider task (task.goOn next) db' := by
  have hversion : task.tokenVersion
      = task.listener.connection.tokenVersion := by
    rcases h.published with he | ⟨-, hp | hp⟩
    · exact he
    · rw [hsaved] at hp
      cases hp
    · rw [hactive] at hp
      cases hp
  cases next with
  | none =>
      exact ⟨⟨h.provider, h.userID, h.sourceUserID, h.connectedAt,
        h.started, Or.inl hversion, h.unsaved, fun _ => rfl⟩, rfl, rfl,
        rfl, Nat.le_refl _, Or.inl rfl⟩
  | some l =>
      obtain ⟨hprovider, huser, hstamped⟩ := hnext l rfl
      have htoken : l.connection.tokenVersion
          = task.listener.connection.tokenVersion :=
        congrArg Stamped.version hstamped
      refine ⟨⟨hprovider.trans h.provider, huser.trans h.userID, ?_, ?_, ?_,
        Or.inl (hversion.trans htoken.symm), ?_, h.completed⟩, rfl, rfl,
        rfl, Nat.le_refl _, Or.inl hstamped⟩
      · exact (congrArg (fun g => g.content.sourceUserID) hstamped).trans
          h.sourceUserID
      · exact (congrArg Stamped.epoch hstamped).trans h.connectedAt
      · show task.connection.tokenVersion ≤ l.connection.tokenVersion
        rw [htoken]
        exact h.started
      · intro hp
        change task.unsaved.isSome = true at hp
        rw [hsaved] at hp
        cases hp

/-- A task does what its listener does. -/
theorem Advances.perform (h : task.Coherent provider)
    (hactive : task.returned = false)
    {f : Listener → Db → Option Listener × Db}
    (hf : task.listener.unrecorded = none →
      ∀ next ∈ (f task.listener db).1, Keeps task.listener next) :
    Advances provider task (task.perform f db).1 db' := by
  unfold ListenerTask.perform
  split
  case isFalse => exact .refl h
  case isTrue hsaved =>
    refine .goOn h hactive hsaved fun next hnext => ?_
    unfold Listener.whileRunning at hnext
    split at hnext
    case isTrue hrunning => exact hf hrunning next hnext
    case isFalse =>
      cases hnext
      exact .refl _

theorem keeps_emit {l next : Listener} {batch : DonationBatch}
    {acceptedAt : Time} {draws : List DonationDraw}
    (h : next ∈ (l.emit batch acceptedAt draws db).1) : Keeps l next := by
  unfold Listener.emit at h
  split at h
  case h_1 => cases h; exact .refl _
  case h_2 => cases h; exact .refl _

theorem keeps_record {l next : Listener} (h : next ∈ (l.record db).1) :
    Keeps l next := by
  unfold Listener.record at h
  split at h
  case h_1 => cases h; exact .refl _
  case h_2 => cases h

/-- Without fresh tokens an error of the provider changes no
generation. -/
theorem keeps_fail {l next : Listener} {failure : Failure}
    {refresh : Except Failure Tokens}
    (hrefresh : ∀ tokens, refresh = .ok tokens →
      failure.unauthorized = false ∨ l.refreshedBeforeAuthorization = true
        ∧ failure.hadAuthorizedSession = some false)
    (h : next ∈ (l.fail failure refresh db).1) : Keeps l next := by
  unfold Listener.fail at h
  simp only at h
  split at h
  case isTrue => cases h
  case isFalse hauthorized =>
    split at h
    case isTrue => cases h
    case isFalse hrefreshed =>
      split at h
      case h_1 =>
        split at h
        case isFalse => cases h
        case isTrue =>
          split at h
          case h_1 => cases h; exact .refl _
          case h_2 => cases h
      case h_2 tokens =>
        rcases hrefresh tokens rfl with hu | hr
        · rw [hu] at hauthorized
          exact absurd rfl hauthorized
        · exact absurd hr hrefreshed

/-- A task fails, and may refresh its tokens. -/
theorem Advances.fail (h : task.Coherent provider)
    (hactive : task.returned = false) (failure : Failure)
    (refresh : Except Failure Tokens) :
    Advances provider task (task.fail failure refresh db).1 db' := by
  unfold ListenerTask.fail
  split
  case h_2 =>
    exact .perform h hactive fun _ next hnext =>
      keeps_fail (by rintro tokens ⟨⟩) hnext
  case h_1 tokens =>
    split
    case isFalse hno =>
      unfold ListenerTask.perform
      split
      case isFalse => exact .refl h
      case isTrue hsaved =>
        refine .goOn h hactive hsaved fun next hnext => ?_
        unfold Listener.whileRunning at hnext
        split at hnext
        case isFalse => cases hnext; exact .refl _
        case isTrue hrunning =>
          refine keeps_fail (fun _ _ => ?_) hnext
          have hnot : ¬task.refreshes failure = true :=
            fun hr => hno ⟨hr, hsaved, hrunning⟩
          unfold ListenerTask.refreshes at hnot
          rw [decide_eq_true_eq, not_and_or, not_not] at hnot
          exact hnot.imp_left (Bool.not_eq_true _).mp
    case isTrue hyes =>
      obtain ⟨-, hsaved, -⟩ := hyes
      refine ⟨⟨h.provider, h.userID, h.sourceUserID, h.connectedAt,
        h.started, Or.inr ⟨rfl, Or.inl rfl⟩, fun _ => rfl, h.completed⟩,
        rfl, rfl, rfl, ?_, Or.inl rfl⟩
      show task.tokenVersion ≤ task.listener.connection.tokenVersion + 1
      rcases h.published with he | ⟨he, -⟩
      · omega
      · omega

/-- A save that ends the listener. -/
theorem Advances.ended (h : task.Coherent provider) {tokens : Tokens}
    (hsaved : task.unsaved = some tokens) :
    Advances provider task
      { task with unsaved := none, returned := true } db' := by
  have hahead := h.unsaved (by rw [hsaved]; rfl)
  exact ⟨⟨h.provider, h.userID, h.sourceUserID, h.connectedAt, h.started,
    Or.inr ⟨hahead, Or.inr rfl⟩, fun hp => (nomatch hp), fun _ => rfl⟩,
    rfl, rfl, rfl, Nat.le_refl _, Or.inl rfl⟩

/-- A task saves its tokens. -/
theorem Advances.save (h : task.Coherent provider) (outcome : SaveOutcome)
    (db : Db) :
    Advances provider task (task.save outcome db).1
      (task.save outcome db).2 := by
  unfold ListenerTask.save
  split
  case h_1 => exact .refl h
  case h_2 tokens hsaved =>
    have hahead := h.unsaved (by rw [hsaved]; rfl)
    dsimp only
    split
    case h_1 => exact .ended h hsaved
    case h_2 => exact .ended h hsaved
    case h_3 =>
      split
      case h_2 => exact .ended h hsaved
      case h_1 db' hstored =>
        have hregister := setTokensIfVersion_register hstored
        rw [h.provider] at hregister
        refine ⟨⟨h.provider, h.userID, h.sourceUserID, h.connectedAt, ?_,
          Or.inl hahead, fun hp => (nomatch hp), h.completed⟩, rfl, rfl,
          rfl, Nat.le_refl _, Or.inr ⟨?_, rfl⟩⟩
        · exact Nat.le_succ_of_le h.started
        · rw [← h.userID]
          exact hregister

theorem Advances.finish (h : task.Coherent provider)
    (hactive : task.returned = false) :
    Advances provider task (task.finish db).1 db' := by
  unfold ListenerTask.finish
  split
  case isFalse => exact .refl h
  case isTrue hsaved =>
    have hnone : ∀ l ∈ (none : Option Listener), Keeps task.listener l :=
      fun _ hl => (nomatch hl)
    exact .goOn h hactive hsaved hnone

-- ================================= invariant

/-- A listener is done with when it is cancelled or its completion was
received. -/
def listenerReading : Reading UserID RunningListener ListenerTask where
  worker := (·.listenerID)
  key := (·.connection.userID)
  dismissed := fun task => task.cancelled || task.completed

namespace Integration

variable {s : Integration} {a : SupervisorAction}

/-- The listener serves the connection that the refresh has read. -/
def Served (s : Integration) (snapshot : List Connection)
    (userID : UserID) (listener : RunningListener) : Prop :=
  ∃ c ∈ byUserID snapshot userID, ¬ReplacedBy listener (s.load listener) c

/-- Entries and tasks agree, and every task belongs to its provider. -/
structure Inv (s : Integration) : Prop where
  roster : Roster.Inv listenerReading s.supervisor
  task : ∀ id, ∀ t ∈ s.supervisor.workers id, t.Coherent s.provider
  entry : ∀ userID, ∀ listener ∈ s.supervisor.running userID,
    ∀ t ∈ s.supervisor.workers listener.listenerID,
      listener.sourceUserID = t.connection.sourceUserID
        ∧ listener.connectedAt = t.connection.connectedAt
  checked : ∀ refresh ∈ s.refreshing, ∀ userID,
    ∀ listener ∈ s.supervisor.running userID,
      userID ∉ refresh.unchecked →
        s.Served refresh.snapshot userID listener

theorem inv_init (provider : Provider) : Inv (.init provider) :=
  ⟨Roster.inv_empty, fun _ _ h => (nomatch h), fun _ _ h => (nomatch h),
    fun _ h => (nomatch h)⟩

/-- Every key of `running` is in the list of users. -/
theorem Inv.mem_users (h : s.Inv)
    (hl : s.supervisor.running userID = some listener) :
    userID ∈ s.users := by
  obtain ⟨t, ht, hkey, -⟩ := h.roster.entry userID listener hl
  change t.connection.userID = userID at hkey
  change s.supervisor.workers listener.listenerID = some t at ht
  have hlt : listener.listenerID < s.supervisor.started := by
    by_contra hge
    rw [h.roster.fresh _ (Nat.not_lt.mp hge)] at ht
    cases ht
  refine List.mem_filterMap.mpr
    ⟨listener.listenerID, List.mem_range.mpr hlt, ?_⟩
  rw [ht, Option.bind_some, hkey, hl]
  exact if_pos rfl

/-- Entries are listeners that were not cancelled. -/
theorem Inv.atMostOne (h : s.Inv) : s.AtMostOne := by
  rintro userID id id' ⟨t, ht, huser, hcancelled, hreturned⟩
    ⟨t', ht', huser', hcancelled', hreturned'⟩
  have hlive : ∀ {i t}, t ∈ s.supervisor.workers i →
      t.cancelled = false → t.returned = false →
      listenerReading.dismissed t = false := by
    intro i t ht hcancelled hreturned
    show (t.cancelled || t.completed) = false
    rw [hcancelled, Bool.false_or, Bool.eq_false_iff]
    intro hc
    rw [(h.task i t ht).completed hc] at hreturned
    cases hreturned
  exact h.roster.unique ht ht' (hlive ht hcancelled hreturned)
    (hlive ht' hcancelled' hreturned') (huser.trans huser'.symm)

-- -------------------------------------------------------- a listener's step

/-- A listener takes a step, or there is none that could. -/
theorem listen_cases (s : Integration) (listenerID : Nat)
    (f : ListenerTask → Db → ListenerTask × Db) :
    s.listen listenerID f = s
      ∨ ∃ task, s.supervisor.workers listenerID = some task
        ∧ task.returned = false
        ∧ s.listen listenerID f = { s with
          db := (f task s.db).2
          supervisor := s.supervisor.mark fun id t =>
            if id = listenerID then (f task s.db).1 else t } := by
  unfold listen
  split
  case h_1 => exact Or.inl rfl
  case h_2 task htask =>
    split
    case isTrue => exact Or.inl rfl
    case isFalse hactive =>
      exact Or.inr ⟨task, htask, (Bool.not_eq_true _).mp hactive, rfl⟩

/-- The steps of a listener, as functions on its task. -/
def Steps (f : ListenerTask → Db → ListenerTask × Db) : Prop :=
  ∀ provider task db, task.Coherent provider → task.returned = false →
    Advances provider task (f task db).1 (f task db).2

theorem steps_emit (batch : DonationBatch) (acceptedAt : Time)
    (draws : List DonationDraw) : Steps (ListenerTask.perform fun l db =>
      l.emit batch acceptedAt draws db) :=
  fun _ _ _ h hactive => .perform h hactive fun _ _ => keeps_emit

theorem steps_fail (failure : Failure) (refresh : Except Failure Tokens) :
    Steps fun task db => task.fail failure refresh db :=
  fun _ _ _ h hactive => .fail h hactive failure refresh

theorem steps_record : Steps fun task db =>
    if task.unsaved = none then
      (task.goOn (task.listener.record db).1, (task.listener.record db).2)
    else (task, db) := by
  intro provider task db h hactive
  dsimp only
  split
  case isTrue hsaved =>
    exact .goOn h hactive hsaved fun _ => keeps_record
  case isFalse => exact .refl h

theorem steps_save (outcome : SaveOutcome) :
    Steps fun task db => task.save outcome db :=
  fun _ _ db h _ => .save h outcome db

theorem steps_finish : Steps ListenerTask.finish :=
  fun _ _ _ h hactive => .finish h hactive

/-- What is published only grows, so nobody is replaced by a snapshot
that did not replace it before. -/
theorem Served.mono (h : s.Served snapshot userID listener)
    (hload : s.load listener ≤ s'.load listener) :
    s'.Served snapshot userID listener := by
  obtain ⟨c, hc, hserves⟩ := h
  refine ⟨c, hc, fun hr => hserves ?_⟩
  rcases hr with hr | hr | hr
  · exact Or.inl hr
  · exact Or.inr (Or.inl hr)
  · exact Or.inr (Or.inr (Nat.lt_of_le_of_lt hload hr))

theorem load_mark {f : Nat → ListenerTask → ListenerTask}
    (hs' : s'.supervisor.workers
      = (s.supervisor.mark f).workers)
    (hversion : ∀ id, ∀ t ∈ s.supervisor.workers id,
      t.tokenVersion ≤ (f id t).tokenVersion)
    (listener : RunningListener) : s.load listener ≤ s'.load listener := by
  unfold load
  rw [hs']
  have hmark : (s.supervisor.mark f).workers listener.listenerID
      = (s.supervisor.workers listener.listenerID).map
        (f listener.listenerID) :=
    rfl
  rw [hmark]
  cases ht : s.supervisor.workers listener.listenerID with
  | none => exact Nat.le_refl 0
  | some t => exact hversion _ t ht

/-- A listener makes a step. -/
theorem Inv.listen (h : s.Inv) (listenerID : Nat)
    {f : ListenerTask → Db → ListenerTask × Db} (hf : Steps f) :
    (s.listen listenerID f).Inv := by
  rcases listen_cases s listenerID f with he | ⟨task, htask, hactive, he⟩
  · rw [he]
    exact h
  rw [he]
  have hadvances := hf s.provider task s.db (h.task listenerID task htask)
    hactive
  have hold : ∀ id, ∀ t ∈ s.supervisor.workers id, id = listenerID →
      t = task := by
    rintro id t ht rfl
    rw [htask] at ht
    cases ht
    rfl
  refine ⟨h.roster.mark (fun id t ht => ?_) fun id t ht => ?_,
    fun id t ht => ?_, fun userID listener hl t ht => ?_,
    fun refresh hr userID listener hl hchecked => ?_⟩
  · split
    case isTrue hid =>
      rw [hold id t ht hid]
      exact congrArg Connection.userID hadvances.connection
    case isFalse => rfl
  · split
    case isTrue hid =>
      rw [hold id t ht hid]
      show (_ || _) = (_ || _)
      rw [hadvances.cancelled, hadvances.completed]
    case isFalse => rfl
  · obtain ⟨t₀, ht₀, rfl⟩ := Roster.mem_mark.mp ht
    split
    case isTrue => exact hadvances.coherent
    case isFalse => exact h.task id t₀ ht₀
  · obtain ⟨t₀, ht₀, rfl⟩ := Roster.mem_mark.mp ht
    have hentry := h.entry userID listener hl t₀ ht₀
    split
    case isTrue hid =>
      rw [hadvances.connection, ← hold _ t₀ ht₀ hid]
      exact hentry
    case isFalse => exact hentry
  · refine (h.checked refresh hr userID listener hl hchecked).mono
      (load_mark rfl (fun id t ht => ?_) listener)
    split
    case isTrue hid =>
      rw [hold id t ht hid]
      exact hadvances.tokenVersion
    case isFalse => exact Nat.le_refl _

-- ------------------------------------------------------------- the refresh

theorem Inv.read (h : s.Inv) : s.read.Inv := by
  unfold Integration.read
  split
  case isFalse => exact h
  case isTrue =>
    refine ⟨h.roster, h.task, h.entry, ?_⟩
    rintro refresh hr userID listener hl hchecked
    cases hr
    exact absurd (h.mem_users hl) hchecked

/-- A user is checked. -/
theorem Inv.check (h : s.Inv) (userID : UserID) :
    (s.check userID).Inv := by
  unfold Integration.check
  split
  case h_1 => exact h
  case h_2 refresh hrefresh =>
    split
    case isFalse => exact h
    case isTrue =>
      have hkept : ∀ u listener,
          (if u = userID ∧ s.Replaced refresh.snapshot u then none
            else s.supervisor.running u) = some listener →
          ¬(u = userID ∧ s.Replaced refresh.snapshot u)
            ∧ s.supervisor.running u = some listener := by
        intro u listener hl
        split at hl
        case isTrue => cases hl
        case isFalse hno => exact ⟨hno, hl⟩
      refine ⟨h.roster.dismiss _ (fun id t _ => ?_) fun id t _ => ?_,
        fun id t ht => ?_, fun u listener hl t ht => ?_,
        fun refresh' hr u listener hl hchecked => ?_⟩
      · split
        case isTrue => rfl
        case isFalse => rfl
      · split
        case isTrue hr => exact ⟨fun _ => Or.inr hr, fun _ => rfl⟩
        case isFalse hr =>
          exact ⟨Or.inl, fun hd => hd.resolve_right fun hr' => hr hr'⟩
      · obtain ⟨t₀, ht₀, rfl⟩ := Roster.mem_mark.mp ht
        have hcoherent := h.task id t₀ ht₀
        split
        case isTrue =>
          exact ⟨hcoherent.provider, hcoherent.userID,
            hcoherent.sourceUserID, hcoherent.connectedAt,
            hcoherent.started, hcoherent.published, hcoherent.unsaved,
            hcoherent.completed⟩
        case isFalse => exact hcoherent
      · obtain ⟨t₀, ht₀, rfl⟩ := Roster.mem_mark.mp ht
        have hentry := h.entry u listener (hkept u listener hl).2 t₀ ht₀
        split
        case isTrue => exact hentry
        case isFalse => exact hentry
      · cases hr
        obtain ⟨hno, hl⟩ := hkept u listener hl
        have hserved : s.Served refresh.snapshot u listener := by
          by_cases hu : u = userID
          · by_contra hreplaced
            refine hno ⟨hu, listener, hl, fun c hc => ?_⟩
            by_contra hserves
            exact hreplaced ⟨c, hc, hserves⟩
          · refine h.checked refresh hrefresh u listener hl fun hmem => ?_
            exact hchecked (List.mem_filter.mpr ⟨hmem, by simpa using hu⟩)
        refine hserved.mono (load_mark rfl (fun id t _ => ?_) listener)
        split
        case isTrue => exact Nat.le_refl _
        case isFalse => exact Nat.le_refl _

/-- The second loop, on the roster alone. -/
structure RosterInv (provider : Provider)
    (supervisor : Roster UserID RunningListener ListenerTask) : Prop where
  roster : Roster.Inv listenerReading supervisor
  task : ∀ id, ∀ t ∈ supervisor.workers id, t.Coherent provider
  entry : ∀ userID, ∀ listener ∈ supervisor.running userID,
    ∀ t ∈ supervisor.workers listener.listenerID,
      listener.sourceUserID = t.connection.sourceUserID
        ∧ listener.connectedAt = t.connection.connectedAt

/-- A listener starts where none is. -/
theorem RosterInv.startListener
    {supervisor : Roster UserID RunningListener ListenerTask}
    (h : RosterInv provider supervisor) (connection : Connection) :
    RosterInv provider (startListener provider supervisor connection) := by
  unfold Integration.startListener
  split
  case h_1 => exact h
  case h_2 hfree =>
    refine ⟨h.roster.start hfree rfl rfl rfl, fun id t ht => ?_,
      fun userID listener hl t ht => ?_⟩
    · change Function.update supervisor.workers _ _ id = some t at ht
      by_cases hid : id = supervisor.started
      · subst hid
        rw [Function.update_self] at ht
        cases ht
        exact ⟨rfl, rfl, rfl, rfl, Nat.le_refl _, Or.inl rfl,
          fun hp => (nomatch hp), fun hp => (nomatch hp)⟩
      · rw [Function.update_of_ne hid] at ht
        exact h.task id t ht
    · change Function.update supervisor.running _ _ userID
        = some listener at hl
      change Function.update supervisor.workers _ _ _ = some t at ht
      by_cases hu : userID = connection.userID
      · subst hu
        rw [Function.update_self] at hl
        cases hl
        rw [Function.update_self] at ht
        cases ht
        exact ⟨rfl, rfl⟩
      · rw [Function.update_of_ne hu] at hl
        obtain ⟨t₀, ht₀, -⟩ := h.roster.entry userID listener hl
        have hne : listener.listenerID ≠ supervisor.started := by
          intro hid
          change t₀ ∈ supervisor.workers listener.listenerID at ht₀
          rw [hid, h.roster.fresh _ (Nat.le_refl _)] at ht₀
          cases ht₀
        rw [Function.update_of_ne hne] at ht
        exact h.entry userID listener hl t ht

theorem Inv.startListeners (h : s.Inv) : s.startListeners.Inv := by
  unfold Integration.startListeners
  split
  case h_2 => exact h
  case h_1 snapshot hrefreshing =>
    have hroster := List.foldlRecOn (motive := RosterInv s.provider)
      snapshot _ ⟨h.roster, h.task, h.entry⟩
      fun supervisor hs connection _ => hs.startListener connection
    exact ⟨hroster.roster, hroster.task, hroster.entry,
      fun _ hr => (nomatch hr)⟩

-- ------------------------------------------------------------- completions

/-- The completion of a listener is received. -/
theorem Inv.complete (h : s.Inv) (listenerID : Nat) :
    (s.complete listenerID).Inv := by
  unfold Integration.complete
  split
  case h_1 => exact h
  case h_2 task htask =>
    split
    case isFalse => exact h
    case isTrue hready =>
      obtain ⟨hidle, hreturned, -⟩ := hready
      refine ⟨h.roster.dismiss _ (fun id t _ => ?_) fun id t ht => ?_,
        fun id t ht => ?_, fun userID listener hl t ht => ?_,
        fun refresh hr => ?_⟩
      · split
        case isTrue => rfl
        case isFalse => rfl
      · split
        case isTrue hid =>
          subst hid
          rw [htask] at ht
          cases ht
          have hdone : listenerReading.dismissed
              { task with completed := true } = true := Bool.or_true _
          refine ⟨fun _ => ?_, fun _ => hdone⟩
          -- it was dismissed before, or the entry is its own
          by_cases hlive : listenerReading.dismissed task = true
          · exact Or.inl hlive
          · have hcurrent := h.roster.others id task htask
              ((Bool.not_eq_true _).mp hlive)
            exact Or.inr ⟨⟨rfl, hcurrent⟩, hcurrent⟩
        case isFalse hid =>
          refine ⟨Or.inl, fun hd => hd.resolve_right ?_⟩
          rintro ⟨⟨hkey, hentry⟩, hcurrent⟩
          have hcurrent : (s.supervisor.running
              (listenerReading.key t)).map (·.listenerID) = some id :=
            hcurrent
          rw [hentry] at hcurrent
          exact hid (Option.some.inj hcurrent).symm
      · obtain ⟨t₀, ht₀, rfl⟩ := Roster.mem_mark.mp ht
        have hcoherent := h.task id t₀ ht₀
        split
        case isTrue hid =>
          subst hid
          change s.supervisor.workers id = some t₀ at ht₀
          rw [htask] at ht₀
          cases ht₀
          exact ⟨hcoherent.provider, hcoherent.userID,
            hcoherent.sourceUserID, hcoherent.connectedAt,
            hcoherent.started, hcoherent.published, hcoherent.unsaved,
            fun _ => hreturned⟩
        case isFalse => exact hcoherent
      · obtain ⟨t₀, ht₀, rfl⟩ := Roster.mem_mark.mp ht
        change (if _ then none else s.supervisor.running userID)
          = some listener at hl
        split at hl
        case isTrue => cases hl
        case isFalse =>
          have hentry := h.entry userID listener hl t₀ ht₀
          split
          case isTrue => exact hentry
          case isFalse => exact hentry
      · change s.refreshing = some refresh at hr
        rw [hidle] at hr
        cases hr

/-- A completion deletes no entry but its own. -/
theorem complete_keeps {listenerID : Nat}
    (hl : s.supervisor.running userID = some listener)
    (hne : listener.listenerID ≠ listenerID) :
    (s.complete listenerID).supervisor.running userID = some listener := by
  unfold Integration.complete
  split
  case h_1 => exact hl
  case h_2 task htask =>
    split
    case isFalse => exact hl
    case isTrue =>
      show (if _ then none else s.supervisor.running userID)
        = some listener
      rw [if_neg]
      · exact hl
      · rintro ⟨-, he⟩
        rw [hl] at he
        exact hne (Option.some.inj he)

/-- One step of the integration. -/
theorem Inv.step (h : s.Inv) (a : SupervisorAction) : (s.step a).Inv := by
  cases a with
  | read => exact h.read
  | check userID => exact h.check userID
  | startListeners => exact h.startListeners
  | complete listenerID => exact h.complete listenerID
  | emit listenerID batch acceptedAt draws =>
      exact h.listen listenerID (steps_emit batch acceptedAt draws)
  | fail listenerID failure refresh =>
      exact h.listen listenerID (steps_fail failure refresh)
  | record listenerID => exact h.listen listenerID steps_record
  | save listenerID outcome =>
      exact h.listen listenerID (steps_save outcome)
  | finish listenerID => exact h.listen listenerID steps_finish
  | store call => exact ⟨h.roster, h.task, h.entry, h.checked⟩

theorem inv_run (provider : Provider) (acts : List SupervisorAction) :
    (run provider acts).Inv :=
  Run.run_preserves (inv_init provider) (fun _ a hs => hs.step a) acts

-- ====================================== runs

/-- A step is at most one store call. -/
theorem listen_db (listenerID : Nat)
    {f : ListenerTask → Db → ListenerTask × Db}
    (hf : ∀ task db, (f task db).2 = db
      ∨ ∃ call, (f task db).2 = Donations.perform db call) :
    (s.listen listenerID f).db = s.db
      ∨ ∃ call, (s.listen listenerID f).db
        = Donations.perform s.db call := by
  rcases listen_cases s listenerID f with he | ⟨task, -, -, he⟩
  · exact Or.inl (congrArg Integration.db he)
  · rw [he]
    exact hf task s.db

theorem perform_db {f : Listener → Db → Option Listener × Db}
    (hf : ∀ l db, Guarded l.provider l.connection.version db (f l db).2)
    (task : ListenerTask) (db : Db) :
    (task.perform f db).2 = db
      ∨ ∃ call, (task.perform f db).2 = Donations.perform db call := by
  unfold ListenerTask.perform
  split
  case isFalse => exact Or.inl rfl
  case isTrue =>
    exact (guarded_whileRunning hf task.listener db).imp_right
      fun ⟨call, _, he⟩ => ⟨call, he⟩

/-- So is the saving of its tokens. -/
theorem save_db (outcome : SaveOutcome) (task : ListenerTask) (db : Db) :
    (task.save outcome db).2 = db
      ∨ ∃ call, (task.save outcome db).2 = Donations.perform db call := by
  unfold ListenerTask.save
  split
  case h_1 => exact Or.inl rfl
  case h_2 tokens _ =>
    dsimp only
    split
    case h_1 => exact Or.inl rfl
    case h_2 => exact Or.inr ⟨.setTokensIfVersion _ _ tokens, rfl⟩
    case h_3 =>
      refine Or.inr ⟨.setTokensIfVersion task.listener.provider
        task.listener.connection.version tokens, ?_⟩
      show _ = (setTokensIfVersion ..).2
      split
      case h_1 heq => rw [heq]
      case h_2 heq => rw [heq]

/-- So is every step. -/
theorem step_db (s : Integration) (a : SupervisorAction) :
    (s.step a).db = s.db
      ∨ ∃ call, (s.step a).db = Donations.perform s.db call := by
  cases a with
  | read =>
      left
      show s.read.db = s.db
      unfold Integration.read
      split
      case isTrue => rfl
      case isFalse => rfl
  | check userID =>
      left
      show (s.check userID).db = s.db
      unfold Integration.check
      split
      case h_1 => rfl
      case h_2 =>
        split
        case isTrue => rfl
        case isFalse => rfl
  | startListeners =>
      left
      show s.startListeners.db = s.db
      unfold Integration.startListeners
      split
      case h_1 => rfl
      case h_2 => rfl
  | complete listenerID =>
      left
      show (s.complete listenerID).db = s.db
      unfold Integration.complete
      split
      case h_1 => rfl
      case h_2 =>
        split
        case isTrue => rfl
        case isFalse => rfl
  | emit listenerID batch acceptedAt draws =>
      exact listen_db listenerID (perform_db fun l db =>
        guarded_emit l batch acceptedAt draws db)
  | fail listenerID failure refresh =>
      refine listen_db listenerID fun task db => ?_
      have hperform := perform_db
        (fun l db => guarded_fail l failure refresh db) task db
      unfold ListenerTask.fail
      split
      case h_2 => exact hperform
      case h_1 =>
        split
        case isTrue => exact Or.inl rfl
        case isFalse => exact hperform
  | record listenerID =>
      refine listen_db listenerID fun task db => ?_
      split
      case isTrue =>
        exact (guarded_record task.listener db).imp_right
          fun ⟨call, _, he⟩ => ⟨call, he⟩
      case isFalse => exact Or.inl rfl
  | save listenerID outcome => exact listen_db listenerID (save_db outcome)
  | finish listenerID =>
      refine listen_db listenerID fun task db => Or.inl ?_
      unfold ListenerTask.finish
      split
      case isTrue => rfl
      case isFalse => rfl
  | store call => exact Or.inr ⟨call, rfl⟩

/-- The connect times that a step draws for a user. -/
def connects (provider : Provider) (userID : UserID) (s : Integration)
    (a : SupervisorAction) : List Time :=
  connectedAt provider userID s.db (s.step a).db

theorem step_register (provider : Provider) (userID : UserID)
    (s : Integration) (a : SupervisorAction) :
    Generation.Step (connects provider userID s a)
      (s.db.register provider userID)
      ((s.step a).db.register provider userID) := by
  show Renews provider userID s.db (s.step a).db
  rcases step_db s a with he | ⟨call, he⟩
  · rw [he]
    exact .of_eq rfl
  · rw [he]
    exact renews_perform call

/-- The generations that the connection of a user goes through. -/
def held (provider : Provider) (userID : UserID)
    (acts : List SupervisorAction) :
    Set (Stamped Time ProviderConnection) :=
  heldAlong step (fun s => s.db.register provider userID) (.init provider)
    acts

theorem run_snoc (provider : Provider) (acts : List SupervisorAction)
    (a : SupervisorAction) :
    run provider (acts ++ [a]) = (run provider acts).step a := by
  unfold run
  rw [Run.run_append, Run.run_cons, Run.run_nil]

theorem held_mono {g : Stamped Time ProviderConnection}
    (h : g ∈ held provider userID acts) (a : SupervisorAction) :
    g ∈ held provider userID (acts ++ [a]) := by
  unfold held
  rw [heldAlong_snoc]
  exact Or.inl h

theorem held_of_register {g : Stamped Time ProviderConnection}
    (h : g ∈ (run provider acts).db.register provider userID) :
    g ∈ held provider userID acts :=
  ⟨acts, List.prefix_rfl, h⟩

theorem connections_register (h : c ∈ connections provider db) :
    c.stamped ∈ db.register provider c.userID := by
  obtain ⟨r, hr, rfl⟩ := List.mem_map.mp h
  obtain ⟨hr, hfilter⟩ := List.mem_filter.mp hr
  have hprovider : r.provider = provider := (of_decide_eq_true hfilter).1
  rw [← hprovider]
  exact register_of_mem hr

/-- A step that neither reads nor starts. -/
structure Evolves (s s' : Integration) : Prop where
  workers : ∀ id, ∀ t' ∈ s'.supervisor.workers id,
    ∃ t ∈ s.supervisor.workers id, t'.connection = t.connection
      ∧ (t'.listener.connection.stamped = t.listener.connection.stamped
        ∨ t'.listener.connection.stamped
            ∈ s'.db.register s.provider t.connection.userID
          ∧ t'.listener.connection.tokenVersion
            = t.listener.connection.tokenVersion + 1)
  running : ∀ userID, ∀ l ∈ s'.supervisor.running userID,
    l ∈ s.supervisor.running userID
  refreshing : ∀ r' ∈ s'.refreshing, ∃ r ∈ s.refreshing,
    r'.snapshot = r.snapshot

theorem Evolves.refl (s : Integration) : Evolves s s :=
  ⟨fun _ t ht => ⟨t, ht, rfl, Or.inl rfl⟩, fun _ _ hl => hl,
    fun r hr => ⟨r, hr, rfl⟩⟩

/-- A listener's step starts nobody. -/
theorem evolves_listen (h : s.Inv) (listenerID : Nat)
    {f : ListenerTask → Db → ListenerTask × Db} (hf : Steps f) :
    Evolves s (s.listen listenerID f) := by
  rcases listen_cases s listenerID f with he | ⟨task, htask, hactive, he⟩
  · rw [he]
    exact .refl s
  · rw [he]
    have hadvances := hf s.provider task s.db
      (h.task listenerID task htask) hactive
    refine ⟨fun id t' ht' => ?_, fun _ _ hl => hl,
      fun r hr => ⟨r, hr, rfl⟩⟩
    obtain ⟨t, ht, rfl⟩ := Roster.mem_mark.mp ht'
    refine ⟨t, ht, ?_⟩
    split
    case isTrue hid =>
      subst hid
      rw [htask] at ht
      cases ht
      exact ⟨hadvances.connection, hadvances.held⟩
    case isFalse => exact ⟨rfl, Or.inl rfl⟩

/-- Nor do entries that go. -/
theorem evolves_mark {P : UserID → Prop} [DecidablePred P]
    {f : Nat → ListenerTask → ListenerTask}
    (hs' : s'.supervisor = (s.supervisor.drop P).mark f)
    (hf : ∀ id t, (f id t).connection = t.connection
      ∧ (f id t).listener = t.listener)
    (hrefreshing : ∀ r' ∈ s'.refreshing, ∃ r ∈ s.refreshing,
      r'.snapshot = r.snapshot) : Evolves s s' := by
  refine ⟨fun id t' ht' => ?_, fun userID l hl => ?_, hrefreshing⟩
  · rw [hs'] at ht'
    obtain ⟨t, ht, rfl⟩ := Roster.mem_mark.mp ht'
    obtain ⟨hconnection, hlistener⟩ := hf id t
    exact ⟨t, ht, hconnection, Or.inl (by rw [hlistener])⟩
  · rw [hs'] at hl
    change (if P userID then none else s.supervisor.running userID)
      = some l at hl
    split at hl
    case isTrue => cases hl
    case isFalse => exact hl

/-- Only startListeners starts somebody. -/
theorem evolves_step (h : s.Inv) (hread : a ≠ .read)
    (hstart : a ≠ .startListeners) : Evolves s (s.step a) := by
  cases a with
  | read => exact absurd rfl hread
  | startListeners => exact absurd rfl hstart
  | check userID =>
      show Evolves s (s.check userID)
      unfold Integration.check
      split
      case h_1 => exact .refl s
      case h_2 refresh hrefresh =>
        split
        case isFalse => exact .refl s
        case isTrue =>
          refine evolves_mark rfl (fun id t => ?_) fun r' hr' => ?_
          · split
            case isTrue => exact ⟨rfl, rfl⟩
            case isFalse => exact ⟨rfl, rfl⟩
          · cases hr'
            exact ⟨refresh, hrefresh, rfl⟩
  | complete listenerID =>
      show Evolves s (s.complete listenerID)
      unfold Integration.complete
      split
      case h_1 => exact .refl s
      case h_2 =>
        split
        case isFalse => exact .refl s
        case isTrue =>
          refine evolves_mark rfl (fun id t => ?_)
            fun r hr => ⟨r, hr, rfl⟩
          split
          case isTrue => exact ⟨rfl, rfl⟩
          case isFalse => exact ⟨rfl, rfl⟩
  | emit listenerID batch acceptedAt draws =>
      exact evolves_listen h listenerID (steps_emit batch acceptedAt draws)
  | fail listenerID failure refresh =>
      exact evolves_listen h listenerID (steps_fail failure refresh)
  | record listenerID => exact evolves_listen h listenerID steps_record
  | save listenerID outcome =>
      exact evolves_listen h listenerID (steps_save outcome)
  | finish listenerID => exact evolves_listen h listenerID steps_finish
  | store call =>
      exact ⟨fun _ t ht => ⟨t, ht, rfl, Or.inl rfl⟩, fun _ _ hl => hl,
        fun r hr => ⟨r, hr, rfl⟩⟩

/-- A worker of the roster that the second loop leaves was there, or
serves a connection of the snapshot. -/
theorem workers_startListeners
    {supervisor : Roster UserID RunningListener ListenerTask}
    {t' : ListenerTask}
    (h : t' ∈ (snapshot.foldl (Integration.startListener provider)
      supervisor).workers id) :
    t' ∈ supervisor.workers id
      ∨ ∃ c ∈ snapshot, t'.connection = c ∧ t'.listener.connection = c := by
  induction snapshot generalizing supervisor with
  | nil => exact Or.inl h
  | cons c snapshot ih =>
      rcases ih h with h | ⟨c', hc', he⟩
      · unfold Integration.startListener at h
        split at h
        case h_1 => exact Or.inl h
        case h_2 =>
          change Function.update supervisor.workers _ _ id = some t' at h
          by_cases hid : id = supervisor.started
          · subst hid
            rw [Function.update_self] at h
            cases h
            exact Or.inr ⟨c, List.mem_cons_self, rfl, rfl⟩
          · rw [Function.update_of_ne hid] at h
            exact Or.inl h
      · exact Or.inr ⟨c', List.mem_cons_of_mem c hc', he⟩

/-- What a run says about where its tasks and its snapshot come from. -/
structure History (provider : Provider) (acts : List SupervisorAction) :
    Prop where
  snapshot : ∀ refresh ∈ (run provider acts).refreshing,
    ∀ c ∈ refresh.snapshot, c.stamped ∈ held provider c.userID acts
  task : ∀ id, ∀ t ∈ (run provider acts).supervisor.workers id,
    t.connection.stamped ∈ held provider t.connection.userID acts
      ∧ t.listener.connection.stamped
        ∈ held provider t.connection.userID acts
  /-- Each version between is one that the listener had. -/
  versions : ∀ id, ∀ t ∈ (run provider acts).supervisor.workers id,
    ∀ v, t.connection.tokenVersion ≤ v →
      v ≤ t.listener.connection.tokenVersion →
      ∃ before, before <+: acts
        ∧ ∃ t' ∈ (run provider before).supervisor.workers id,
          t'.connection = t.connection
            ∧ t'.listener.connection.tokenVersion = v
  /-- A snapshot is not older than what its listeners were started
  for. -/
  order : ∀ userID, (Run.log step (connects provider userID)
      (.init provider) acts).Nodup →
    ∀ refresh ∈ (run provider acts).refreshing,
    ∀ l ∈ (run provider acts).supervisor.running userID,
    ∀ t ∈ (run provider acts).supervisor.workers l.listenerID,
    ∀ c ∈ refresh.snapshot, c.userID = userID →
      c.connectedAt = t.connection.connectedAt →
      t.connection.tokenVersion ≤ c.tokenVersion

/-- The provider is the same all along. -/
theorem run_provider (provider : Provider) (acts : List SupervisorAction) :
    (run provider acts).provider = provider := by
  refine Run.run_preserves
    (P := fun s : Integration => s.provider = provider) rfl
    (fun s a hs => ?_) acts
  rw [← hs]
  have hlisten : ∀ listenerID f,
      (s.listen listenerID f).provider = s.provider := by
    intro listenerID f
    rcases listen_cases s listenerID f with he | ⟨_, _, _, he⟩
    · rw [he]
    · rw [he]
  cases a with
  | read =>
      show s.read.provider = _
      unfold Integration.read
      split
      case isTrue => rfl
      case isFalse => rfl
  | check userID =>
      show (s.check userID).provider = _
      unfold Integration.check
      split
      case h_1 => rfl
      case h_2 =>
        split
        case isTrue => rfl
        case isFalse => rfl
  | startListeners =>
      show s.startListeners.provider = _
      unfold Integration.startListeners
      split
      case h_1 => rfl
      case h_2 => rfl
  | complete listenerID =>
      show (s.complete listenerID).provider = _
      unfold Integration.complete
      split
      case h_1 => rfl
      case h_2 =>
        split
        case isTrue => rfl
        case isFalse => rfl
  | emit => exact hlisten _ _
  | fail => exact hlisten _ _
  | record => exact hlisten _ _
  | save => exact hlisten _ _
  | finish => exact hlisten _ _
  | store => rfl

theorem versions_snoc (h : History provider acts) (a : SupervisorAction)
    (ht : t ∈ (run provider acts).supervisor.workers id) {v : Nat}
    (hlow : t.connection.tokenVersion ≤ v)
    (hhigh : v ≤ t.listener.connection.tokenVersion) :
    ∃ before, before <+: acts ++ [a]
      ∧ ∃ t' ∈ (run provider before).supervisor.workers id,
        t'.connection = t.connection
          ∧ t'.listener.connection.tokenVersion = v := by
  obtain ⟨before, hbefore, hrest⟩ := h.versions id t ht v hlow hhigh
  exact ⟨before, hbefore.trans (List.prefix_append acts [a]), hrest⟩

theorem nodup_init {a : SupervisorAction}
    (h : (Run.log step (connects provider userID) (.init provider)
      (acts ++ [a])).Nodup) :
    (Run.log step (connects provider userID) (.init provider)
      acts).Nodup := by
  rw [Run.log_append] at h
  exact (List.nodup_append.mp h).1

/-- A step that starts nobody. -/
theorem History.evolves (h : History provider acts) {a : SupervisorAction}
    (he : Evolves (run provider acts) (run provider (acts ++ [a]))) :
    History provider (acts ++ [a]) := by
  refine ⟨fun r' hr' c hc => ?_, fun id t' ht' => ?_,
    fun id t' ht' v hlow hhigh => ?_,
    fun userID hdistinct r' hr' l hl t' ht' c hc huser hepoch => ?_⟩
  · obtain ⟨r, hr, hsame⟩ := he.refreshing r' hr'
    exact held_mono (h.snapshot r hr c (hsame ▸ hc)) a
  · obtain ⟨t, ht, hconnection, hheld⟩ := he.workers id t' ht'
    obtain ⟨hstart, hnow⟩ := h.task id t ht
    rw [hconnection]
    refine ⟨held_mono hstart a, ?_⟩
    rcases hheld with hsame | ⟨hregister, -⟩
    · rw [hsame]
      exact held_mono hnow a
    · rw [run_provider] at hregister
      exact held_of_register hregister
  · obtain ⟨t, ht, hconnection, hheld⟩ := he.workers id t' ht'
    rw [hconnection] at hlow ⊢
    by_cases hold : v ≤ t.listener.connection.tokenVersion
    · exact versions_snoc h a ht hlow hold
    · refine ⟨acts ++ [a], List.prefix_rfl, t', ht', hconnection, ?_⟩
      rcases hheld with hsame | ⟨-, hnext⟩
      · have hversion : t'.listener.connection.tokenVersion
            = t.listener.connection.tokenVersion :=
          congrArg Stamped.version hsame
        omega
      · omega
  · obtain ⟨r, hr, hsame⟩ := he.refreshing r' hr'
    obtain ⟨t, ht, hconnection, -⟩ := he.workers _ t' ht'
    rw [hconnection] at hepoch ⊢
    exact h.order userID (nodup_init hdistinct) r hr l
      (he.running userID l hl) t ht c (hsame ▸ hc) huser hepoch

/-- What is read now is not older than what was held before. -/
theorem History.read
    (h : History provider acts) (hinv : (run provider acts).Inv) :
    History provider (acts ++ [.read]) := by
  by_cases hidle : (run provider acts).refreshing = none
  · have hrun : run provider (acts ++ [.read]) = { run provider acts with
        refreshing := some
          { snapshot := connections (run provider acts).provider
              (run provider acts).db
            unchecked := (run provider acts).users } } := by
      rw [run_snoc]
      show (run provider acts).read = _
      unfold Integration.read
      rw [if_pos hidle]
    refine ⟨fun r' hr' c hc => ?_, fun id t ht => ?_,
      fun id t ht v hlow hhigh => ?_,
      fun userID hdistinct r' hr' l hl t ht c hc huser hepoch => ?_⟩
    · rw [hrun] at hr'
      cases hr'
      change c ∈ connections (run provider acts).provider _ at hc
      rw [run_provider] at hc
      exact held_mono (held_of_register (connections_register hc)) _
    · rw [hrun] at ht
      obtain ⟨hstart, hnow⟩ := h.task id t ht
      exact ⟨held_mono hstart _, held_mono hnow _⟩
    · rw [hrun] at ht
      exact versions_snoc h _ ht hlow hhigh
    · rw [hrun] at hr' hl ht
      cases hr'
      change c ∈ connections (run provider acts).provider _ at hc
      rw [run_provider] at hc
      subst huser
      have hcoherent := coherent_run
        (fun s a => step_register provider c.userID s a) rfl
        (nodup_init hdistinct)
      obtain ⟨t₀, ht₀, hkey, -⟩ := hinv.roster.entry c.userID l hl
      have hsame : t = t₀ := Option.some.inj (Eq.trans ht.symm ht₀)
      have hstart := (h.task l.listenerID t ht).1
      have huser : t.connection.userID = c.userID := hsame ▸ hkey
      rw [huser] at hstart
      exact hcoherent.last c.stamped (connections_register hc)
        t.connection.stamped hstart hepoch.symm
  · refine h.evolves ?_
    rw [run_snoc]
    show Evolves _ (run provider acts).read
    unfold Integration.read
    rw [if_neg hidle]
    exact .refl _

/-- A step that starts listeners. -/
theorem History.startListeners (h : History provider acts) :
    History provider (acts ++ [.startListeners]) := by
  have hrun := run_snoc provider acts .startListeners
  change _ = (run provider acts).startListeners at hrun
  unfold Integration.startListeners at hrun
  split at hrun
  case h_2 =>
    refine h.evolves ?_
    rw [hrun]
    exact .refl _
  case h_1 snapshot hrefreshing =>
    -- a worker was there, or is what the snapshot says
    have hworkers : ∀ id,
        ∀ t ∈ (run provider (acts ++ [.startListeners])).supervisor.workers
          id, t ∈ (run provider acts).supervisor.workers id
            ∨ ∃ c ∈ snapshot, t.connection = c
              ∧ t.listener.connection = c := by
      intro id t ht
      rw [hrun] at ht
      exact workers_startListeners ht
    have hidle : (run provider (acts ++ [.startListeners])).refreshing
        = none := by
      rw [hrun]
    refine ⟨fun r hr => ?_, fun id t ht => ?_,
      fun id t ht v hlow hhigh => ?_, fun userID hdistinct r hr => ?_⟩
    · rw [hidle] at hr
      cases hr
    · rcases hworkers id t ht with ht | ⟨c, hc, hconnection, hlistener⟩
      · obtain ⟨hstart, hnow⟩ := h.task id t ht
        exact ⟨held_mono hstart _, held_mono hnow _⟩
      · have hheld := held_mono (h.snapshot _ hrefreshing c hc)
          .startListeners
        rw [hconnection, hlistener]
        exact ⟨hheld, hheld⟩
    · rcases hworkers id t ht with hold | ⟨c, -, hconnection, hlistener⟩
      · exact versions_snoc h _ hold hlow hhigh
      · refine ⟨_, List.prefix_rfl, t, ht, rfl, ?_⟩
        rw [hlistener] at hhigh ⊢
        rw [hconnection] at hlow
        exact Nat.le_antisymm hlow hhigh
    · rw [hidle] at hr
      cases hr

/-- On every run. -/
theorem history_run (provider : Provider) (acts : List SupervisorAction) :
    History provider acts := by
  induction acts using List.reverseRecOn with
  | nil =>
      exact ⟨fun _ h => (nomatch h), fun _ _ h => (nomatch h),
        fun _ _ h => (nomatch h), fun _ _ _ h => (nomatch h)⟩
  | append_singleton acts a ih =>
      have hinv := inv_run provider acts
      by_cases hread : a = .read
      · rw [hread]
        exact ih.read hinv
      · by_cases hstart : a = .startListeners
        · rw [hstart]
          exact ih.startListeners
        · refine ih.evolves ?_
          rw [run_snoc]
          exact evolves_step hinv hread hstart

-- ============================= own refreshes

/-- The version that a task wrote is published. -/
theorem Wrote.published (h : Wrote t c) (ht : t.Coherent provider) :
    c.sourceUserID = t.connection.sourceUserID
      ∧ c.connectedAt = t.connection.connectedAt
      ∧ c.tokenVersion ≤ t.tokenVersion := by
  rcases h with ⟨hversion, -⟩ | ⟨tokens, hunsaved, hversion, -⟩
  · have htoken : c.tokenVersion = t.listener.connection.tokenVersion :=
      congrArg ConnectionVersion.tokenVersion hversion
    refine ⟨(congrArg ConnectionVersion.sourceUserID hversion).trans
      ht.sourceUserID, (congrArg ConnectionVersion.connectedAt
        hversion).trans ht.connectedAt, ?_⟩
    rcases ht.published with he | ⟨he, -⟩
    · omega
    · omega
  · have htoken : c.tokenVersion
        = t.listener.connection.tokenVersion + 1 :=
      congrArg ConnectionVersion.tokenVersion hversion
    have hahead := ht.unsaved (by rw [hunsaved]; rfl)
    exact ⟨(congrArg ConnectionVersion.sourceUserID hversion).trans
      ht.sourceUserID, (congrArg ConnectionVersion.connectedAt
        hversion).trans ht.connectedAt, by omega⟩

/-- A task stays, serves the same connection, and publishes nothing
older. -/
def Grows (s s' : Integration) : Prop :=
  ∀ id, ∀ t ∈ s.supervisor.workers id,
    ∃ t' ∈ s'.supervisor.workers id, t'.connection = t.connection
      ∧ t.tokenVersion ≤ t'.tokenVersion

theorem Grows.refl (s : Integration) : Grows s s :=
  fun _ t ht => ⟨t, ht, rfl, Nat.le_refl _⟩

/-- A listener's version only grows. -/
theorem grows_listen (h : s.Inv) (listenerID : Nat)
    {f : ListenerTask → Db → ListenerTask × Db} (hf : Steps f) :
    Grows s (s.listen listenerID f) := by
  rcases listen_cases s listenerID f with he | ⟨task, htask, hactive, he⟩
  · rw [he]
    exact .refl s
  · rw [he]
    have hadvances := hf s.provider task s.db
      (h.task listenerID task htask) hactive
    intro id t ht
    refine ⟨_, Roster.mem_mark.mpr ⟨t, ht, rfl⟩, ?_⟩
    split
    case isTrue hid =>
      subst hid
      rw [htask] at ht
      cases ht
      exact ⟨hadvances.connection, hadvances.tokenVersion⟩
    case isFalse => exact ⟨rfl, Nat.le_refl _⟩

theorem grows_mark {P : UserID → Prop} [DecidablePred P]
    {f : Nat → ListenerTask → ListenerTask}
    (hs' : s'.supervisor = (s.supervisor.drop P).mark f)
    (hf : ∀ id t, (f id t).connection = t.connection
      ∧ (f id t).tokenVersion = t.tokenVersion) : Grows s s' := by
  intro id t ht
  rw [hs']
  obtain ⟨hconnection, hversion⟩ := hf id t
  exact ⟨f id t, Roster.mem_mark.mpr ⟨t, ht, rfl⟩, hconnection,
    Nat.le_of_eq hversion.symm⟩

/-- Nor do those that come. -/
theorem grows_startListeners (h : s.Inv) : Grows s s.startListeners := by
  unfold Integration.startListeners
  split
  case h_2 => exact .refl s
  case h_1 snapshot _ =>
    have hstays : RosterInv s.provider
        (snapshot.foldl (Integration.startListener s.provider) s.supervisor)
        ∧ ∀ id, ∀ t ∈ s.supervisor.workers id,
          t ∈ (snapshot.foldl (Integration.startListener s.provider)
            s.supervisor).workers id := by
      refine List.foldlRecOn (motive := fun supervisor =>
        RosterInv s.provider supervisor ∧ ∀ id,
          ∀ t ∈ s.supervisor.workers id, t ∈ supervisor.workers id)
        snapshot _ ⟨⟨h.roster, h.task, h.entry⟩, fun _ _ ht => ht⟩ ?_
      rintro supervisor ⟨hinv, hold⟩ connection -
      refine ⟨hinv.startListener connection, fun id t ht => ?_⟩
      have ht := hold id t ht
      unfold Integration.startListener
      split
      case h_1 => exact ht
      case h_2 =>
        show Function.update supervisor.workers _ _ id = some t
        have hne : id ≠ supervisor.started := by
          rintro rfl
          rw [hinv.roster.fresh _ (Nat.le_refl _)] at ht
          cases ht
        rw [Function.update_of_ne hne]
        exact ht
    exact fun id t ht => ⟨t, hstays.2 id t ht, rfl, Nat.le_refl _⟩

/-- So every step lets versions grow only. -/
theorem grows_step (h : s.Inv) (a : SupervisorAction) :
    Grows s (s.step a) := by
  cases a with
  | read =>
      show Grows s s.read
      unfold Integration.read
      split
      case isTrue => exact fun _ t ht => ⟨t, ht, rfl, Nat.le_refl _⟩
      case isFalse => exact .refl s
  | check userID =>
      show Grows s (s.check userID)
      unfold Integration.check
      split
      case h_1 => exact .refl s
      case h_2 =>
        split
        case isFalse => exact .refl s
        case isTrue =>
          refine grows_mark rfl fun id t => ?_
          split
          case isTrue => exact ⟨rfl, rfl⟩
          case isFalse => exact ⟨rfl, rfl⟩
  | startListeners => exact grows_startListeners h
  | complete listenerID =>
      show Grows s (s.complete listenerID)
      unfold Integration.complete
      split
      case h_1 => exact .refl s
      case h_2 =>
        split
        case isFalse => exact .refl s
        case isTrue =>
          refine grows_mark rfl fun id t => ?_
          split
          case isTrue => exact ⟨rfl, rfl⟩
          case isFalse => exact ⟨rfl, rfl⟩
  | emit listenerID batch acceptedAt draws =>
      exact grows_listen h listenerID (steps_emit batch acceptedAt draws)
  | fail listenerID failure refresh =>
      exact grows_listen h listenerID (steps_fail failure refresh)
  | record listenerID => exact grows_listen h listenerID steps_record
  | save listenerID outcome =>
      exact grows_listen h listenerID (steps_save outcome)
  | finish listenerID => exact grows_listen h listenerID steps_finish
  | store call => exact fun _ t ht => ⟨t, ht, rfl, Nat.le_refl _⟩

/-- What a listener has written along a run is published at its end. -/
theorem own_published (h : Own provider acts id c) :
    ∃ t ∈ (run provider acts).supervisor.workers id,
      c.sourceUserID = t.connection.sourceUserID
        ∧ c.connectedAt = t.connection.connectedAt
        ∧ c.tokenVersion ≤ t.tokenVersion := by
  induction acts using List.reverseRecOn with
  | nil =>
      obtain ⟨before, hbefore, t, ht, -⟩ := h
      rw [List.prefix_nil.mp ((List.mem_inits _ _).mp hbefore)] at ht
      cases ht
  | append_singleton acts a ih =>
      obtain ⟨before, hbefore, t, ht, hwrote⟩ := h
      rcases List.prefix_concat_iff.mp ((List.mem_inits _ _).mp hbefore)
        with rfl | hbefore
      · exact ⟨t, ht, hwrote.published
          ((inv_run provider (acts ++ [a])).task id t ht)⟩
      · obtain ⟨t₁, ht₁, hsource, hepoch, hversion⟩ := ih ⟨before,
          (List.mem_inits _ _).mpr hbefore, t, ht, hwrote⟩
        obtain ⟨t', ht', hconnection, hpublished⟩ :=
          grows_step (inv_run provider acts) a id t₁ ht₁
        rw [← run_snoc] at ht'
        rw [← hconnection] at hsource hepoch
        exact ⟨t', ht', hsource, hepoch,
          Nat.le_trans hversion hpublished⟩

theorem load_eq (ht : t ∈ s.supervisor.workers listener.listenerID) :
    s.load listener = t.tokenVersion := by
  unfold load
  rw [show s.supervisor.workers listener.listenerID = some t from ht]

/-- A listener that is not done with has an entry, which says where it is
connected. -/
theorem Inv.entry_of (h : s.Inv)
    (ht : t ∈ s.supervisor.workers id) (hcancelled : t.cancelled = false)
    (hcompleted : t.completed = false) :
    ∃ listener ∈ s.supervisor.running t.connection.userID,
      listener.listenerID = id
        ∧ listener.sourceUserID = t.connection.sourceUserID
        ∧ listener.connectedAt = t.connection.connectedAt
        ∧ s.load listener = t.tokenVersion := by
  have hcurrent := h.roster.others id t ht (by
    show (t.cancelled || t.completed) = false
    rw [hcancelled, hcompleted]
    rfl)
  obtain ⟨listener, hl, rfl⟩ := Option.map_eq_some_iff.mp hcurrent
  have hentry := h.entry _ listener hl t ht
  exact ⟨listener, hl, rfl, hentry.1, hentry.2, load_eq ht⟩

/-- A listener whose own refresh the snapshot shows is not replaced. -/
theorem not_replaced_of_own
    (hl : (run provider acts).supervisor.running userID = some listener)
    (hc : byUserID snapshot userID = some c)
    (hown : Own provider acts listener.listenerID c) :
    ¬(run provider acts).Replaced snapshot userID := by
  rintro ⟨listener', hl', hreplaced⟩
  rw [hl] at hl'
  cases hl'
  obtain ⟨t, ht, hsource, hepoch, hversion⟩ := own_published hown
  have hentry := (inv_run provider acts).entry userID listener hl t ht
  rcases hreplaced c hc with hr | hr | hr
  · exact hr (hsource.trans hentry.1.symm)
  · exact hr (hepoch.trans hentry.2.symm)
  · rw [load_eq ht] at hr
    exact absurd hversion (Nat.not_le.mpr hr)

/-- Looking at a user cancels nobody who is not replaced. -/
theorem check_uncancelled {listenerID : Nat}
    {user : UserID} (hs : s.Uncancelled listenerID userID)
    (hserved : ∀ refresh ∈ s.refreshing,
      ¬s.Replaced refresh.snapshot userID) :
    (s.check user).Uncancelled listenerID userID := by
  obtain ⟨t, ht, rfl, hcancelled, hreturned⟩ := hs
  unfold Integration.check
  split
  case h_1 => exact ⟨t, ht, rfl, hcancelled, hreturned⟩
  case h_2 refresh hrefresh =>
    split
    case isFalse => exact ⟨t, ht, rfl, hcancelled, hreturned⟩
    case isTrue =>
      refine ⟨t, Roster.mem_mark.mpr ⟨t, ht, ?_⟩, rfl, hcancelled,
        hreturned⟩
      rw [if_neg]
      exact fun hr => hserved refresh hrefresh hr.1.2

-- ============================== replacements

/-- While another connection of the user is stored, the save of a
listener changes nothing and ends it. -/
theorem save_overtaken {tokens : Tokens}
    (ht : t.Coherent provider) (hunsaved : t.unsaved = some tokens)
    (huser : c.userID = t.connection.userID)
    (hversion : c.tokenVersion ≠ t.listener.connection.tokenVersion)
    (outcome : SaveOutcome) {db : Db}
    (hstored : readConnection provider c.userID db = some c) :
    t.save outcome db
      = ({ t with unsaved := none, returned := true }, db) := by
  have hstale : ¬Current provider t.listener.connection.version db := by
    rintro ⟨r, hr, hprovider, his⟩
    have hread := readConnection_register hstored
    have hregister := register_of_mem hr
    have hruser : r.userID = c.userID := by
      rw [huser, ← ht.userID]
      exact congrArg ConnectionVersion.userID his
    rw [hprovider, hruser] at hregister
    have hsame : c.stamped = r.toConnection.stamped :=
      Option.some.inj (Eq.trans hread.symm hregister)
    refine hversion ((congrArg Stamped.version hsame).trans ?_)
    exact congrArg ConnectionVersion.tokenVersion his
  have hnone : ¬db.connections.Exists (ConnectionRow.Usable provider
      t.listener.connection.version) :=
    fun ⟨r, hr, hu⟩ => hstale ⟨r, hr, hu.1⟩
  have hsave : setTokensIfVersion t.listener.provider
      t.listener.connection.version tokens db = (.ok false, db) := by
    have hdb : perform db (.setTokensIfVersion provider
        t.listener.connection.version tokens) = db := perform_stale rfl hstale
    change (setTokensIfVersion ..).2 = db at hdb
    rw [ht.provider]
    refine Prod.ext ?_ hdb
    unfold setTokensIfVersion
    rw [if_neg fun ⟨r, hr, hu, _⟩ => hnone ⟨r, hr, hu⟩]
    show Except.ok (decide _) = _
    rw [decide_eq_false hnone]
  unfold ListenerTask.save
  rw [hunsaved]
  dsimp only
  rw [hsave]
  cases outcome with
  | answered => rfl
  | unanswered => rfl
  | lost => rfl

/-- A connection that is not taken for a replacement is one that the
listener has read or saved, or has overtaken its save. -/
theorem own_or_overtaken (ht : t ∈ (run provider acts).supervisor.workers id)
    (hcancelled : t.cancelled = false) (hcompleted : t.completed = false)
    {refresh : Refresh} (hrefresh : refresh ∈ (run provider acts).refreshing)
    (hc : c ∈ refresh.snapshot) (huser : c.userID = t.connection.userID)
    (hepoch : c.connectedAt = t.connection.connectedAt)
    (hversion : c.tokenVersion ≤ t.tokenVersion)
    (hdistinct : (Run.log step (connects provider t.connection.userID)
      (.init provider) acts).Nodup) :
    Own provider acts id c ∨ Overtaken provider t c := by
  have hinv := inv_run provider acts
  have hhistory := history_run provider acts
  have hcoherent := hinv.task id t ht
  rw [run_provider] at hcoherent
  obtain ⟨listener, hl, rfl, -⟩ := hinv.entry_of ht hcancelled hcompleted
  by_cases hold : c.tokenVersion ≤ t.listener.connection.tokenVersion
  · -- a version that the listener had, so by the generation rule its own
    left
    have hlow := hhistory.order t.connection.userID hdistinct refresh
      hrefresh listener hl t ht c hc huser hepoch
    obtain ⟨before, hbefore, t', ht', hconnection, hhad⟩ :=
      hhistory.versions _ t ht c.tokenVersion hlow hold
    have hcoherent' := (inv_run provider before).task _ t' ht'
    have hheld' := ((history_run provider before).task _ t' ht').2
    rw [hconnection] at hheld'
    have hheld : t'.listener.connection.stamped
        ∈ held provider t.connection.userID acts := by
      obtain ⟨earlier, hearlier, hg⟩ := hheld'
      exact ⟨earlier, hearlier.trans hbefore, hg⟩
    have hread := hhistory.snapshot refresh hrefresh c hc
    rw [huser] at hread
    have hsame : c.stamped = t'.listener.connection.stamped := by
      refine run_generation_unique
        (fun s a => step_register provider t.connection.userID s a) rfl
        hdistinct hread hheld ?_ hhad.symm
      exact hepoch.trans ((congrArg Connection.connectedAt
        hconnection).symm.trans hcoherent'.connectedAt.symm)
    refine ⟨before, (List.mem_inits _ _).mpr hbefore, t', ht',
      Or.inl ⟨?_, ?_, ?_⟩⟩
    · unfold Connection.version
      congr 1
      · rw [hcoherent'.userID, hconnection]
        exact huser
      · exact congrArg (fun g => g.content.sourceUserID) hsame
      · exact congrArg Stamped.epoch hsame
      · exact hhad.symm
    · exact congrArg (fun g => g.content.accessToken) hsame
    · exact congrArg (fun g => g.content.refreshToken) hsame
  · right
    rcases hcoherent.published with he | ⟨he, hpending⟩
    · exact absurd (he ▸ hversion) hold
    · refine ⟨by omega, hpending.symm.imp_right fun hunsaved =>
        ⟨hunsaved, fun outcome db hstored => ?_⟩⟩
      obtain ⟨tokens, htokens⟩ := Option.isSome_iff_exists.mp hunsaved
      exact save_overtaken hcoherent htokens huser (by omega) outcome
        hstored

theorem mem_byUserID (h : byUserID snapshot userID = some c) :
    c ∈ snapshot ∧ c.userID = userID := by
  unfold byUserID at h
  refine ⟨List.mem_reverse.mp (List.mem_of_find?_eq_some h), ?_⟩
  simpa using List.find?_some h

-- ============================ the supervisor

/-- In every run of the supervisor, its listeners and everybody else who
changes the connections: one uncancelled listener runs for each user; a
completion deletes no entry but its own; a listener is not cancelled for
a connection that it has read or saved; and when a refresh has looked at
all listeners, one that is not cancelled serves the connection that was
read, by account, connect time and a version it has published. With
distinct connect times it has read or saved that connection, or another
connection has overtaken its save. -/
theorem listeners_supervised (provider : Provider)
    (acts : List SupervisorAction) :
    (run provider acts).AtMostOne
    ∧ (∀ listenerID userID,
        ∀ listener ∈ (run provider acts).supervisor.running userID,
        listener.listenerID ≠ listenerID →
        (run provider (acts ++ [.complete listenerID])).supervisor.running
          userID = some listener)
    ∧ (∀ refresh ∈ (run provider acts).refreshing, ∀ listenerID userID,
        (run provider acts).Uncancelled listenerID userID →
        ∀ c ∈ byUserID refresh.snapshot userID,
        Own provider acts listenerID c → ∀ user,
        (run provider (acts ++ [.check user])).Uncancelled listenerID
          userID)
    ∧ (∀ refresh ∈ (run provider acts).refreshing,
        refresh.unchecked = [] → ∀ listenerID,
        ∀ t ∈ (run provider acts).supervisor.workers listenerID,
        t.cancelled = false → t.completed = false →
        ∃ c ∈ byUserID refresh.snapshot t.connection.userID,
          c.sourceUserID = t.connection.sourceUserID
          ∧ c.connectedAt = t.connection.connectedAt
          ∧ c.tokenVersion ≤ t.tokenVersion
          ∧ ((Run.log step (connects provider t.connection.userID)
              (.init provider) acts).Nodup →
            Own provider acts listenerID c ∨ Overtaken provider t c)) := by
  have hinv := inv_run provider acts
  refine ⟨hinv.atMostOne, fun listenerID userID listener hl hne => ?_,
    fun refresh hrefresh listenerID userID hs c hc hown user => ?_,
    fun refresh hrefresh hall listenerID t ht hcancelled hcompleted => ?_⟩
  · rw [run_snoc]
    exact complete_keeps hl hne
  · rw [run_snoc]
    refine check_uncancelled hs fun refresh' hrefresh' => ?_
    rw [hrefresh] at hrefresh'
    cases hrefresh'
    obtain ⟨t, ht, rfl, hcancelled, hreturned⟩ := hs
    have hcompleted : t.completed = false := by
      rw [Bool.eq_false_iff]
      intro hdone
      rw [(hinv.task listenerID t ht).completed hdone] at hreturned
      cases hreturned
    obtain ⟨listener, hl, rfl, -⟩ :=
      hinv.entry_of ht hcancelled hcompleted
    exact not_replaced_of_own hl hc hown
  · obtain ⟨listener, hl, rfl, hsource, hepoch, hload⟩ :=
      hinv.entry_of ht hcancelled hcompleted
    obtain ⟨c, hc, hserves⟩ := hinv.checked refresh hrefresh _ listener hl
      (by rw [hall]; exact List.not_mem_nil)
    unfold ReplacedBy at hserves
    rw [not_or, not_or, not_not, not_not, hload] at hserves
    obtain ⟨hcsource, hcepoch, hcversion⟩ := hserves
    obtain ⟨hmem, huser⟩ := mem_byUserID hc
    refine ⟨c, hc, hcsource.trans hsource, hcepoch.trans hepoch,
      Nat.not_lt.mp hcversion, fun hdistinct => ?_⟩
    exact own_or_overtaken ht hcancelled hcompleted hrefresh hmem huser
      (hcepoch.trans hepoch) (Nat.not_lt.mp hcversion) hdistinct

/-- A user connects the same account again while the listener is between
publishing its refresh and saving it, and a refresh looks at it then. -/
def reconnectBeforeSave : List SupervisorAction :=
  [.store (.saveConnectionWithDonations .streamlabs 1
      { accessToken := "a", refreshToken := "r", sourceUserID := "u" }
      { donations := [] } 0 []),
    .read, .startListeners,
    .fail 0 { unauthorized := true, permanent := false }
      (.ok { accessToken := "b", refreshToken := "s" }),
    .store (.saveConnectionWithDonations .streamlabs 1
      { accessToken := "c", refreshToken := "t", sourceUserID := "u" }
      { donations := [] } 0 []),
    .read, .check 1]

/-- The connection after its owner has connected again. -/
def reconnected : Connection where
  userID := 1
  sourceUserID := "u"
  connectedAt := 0
  accessToken := "c"
  refreshToken := "t"
  tokenVersion := 2
  historyCheckpoint := none

/-- The reconnect got the version that the listener has published. -/
theorem reconnectBeforeSave_uncancelled :
    ¬CancelsReplaced .streamlabs reconnectBeforeSave := by
  intro h
  obtain ⟨c, hc, hown⟩ := h _ rfl rfl 0 1 ⟨_, rfl, rfl, rfl, rfl⟩
  have hread : some reconnected = some c := hc
  cases hread
  exact absurd hown (by decide)

/-- The listener of that run is not cancelled, and its save is to end
it. -/
theorem listeners_supervised_reconnectBeforeSave :
    ∃ t ∈ (run .streamlabs reconnectBeforeSave).supervisor.workers 0,
      Own .streamlabs reconnectBeforeSave 0 reconnected
        ∨ Overtaken .streamlabs t reconnected := by
  obtain ⟨-, -, -, hserves⟩ :=
    listeners_supervised .streamlabs reconnectBeforeSave
  obtain ⟨c, hc, -, -, -, hown⟩ := hserves _ rfl rfl 0 _ rfl rfl rfl
  have hread : some reconnected = some c := hc
  cases hread
  exact ⟨_, rfl, hown (by decide)⟩

end Integration

end StreamBrew.Donations
