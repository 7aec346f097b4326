/-
A currency change converts every amount once, whatever runs beside it.

# The argument

What an effect writes to the video table is new, has the amount of the
version before it, is an edit, or is a conversion out of the currency
that the user has (`RowWritten`). An open currency change holds its
user's row for update from its first statement on, so no commit changes
that currency under it, and none inserts a video of the user: an insert
takes a key share lock, a scan a share lock (`Locked.unchanged`). So
what a currency change read stays true until its commit (`Held.stable`),
and at its commit every amount of the user that its owner has not edited
is among its rows (`AllConverted`). A scan holds its share lock from the
read of the currency until its commit, by the same argument.
-/
import StreamBrew.Videos.Proofs.Priority
import StreamBrew.Videos.Proofs.Conversion

namespace StreamBrew.Videos

open Relational
open Alert (UserID DonationID Time)

variable {u : UserID} {change : CurrencyChange} {v : Video} {effect : Written}
  {mode : LockMode}

-- ====================================== rows

/-- Where a version comes from. -/
theorem Owns.of_source {db : Db} {v w : VideoValues}
    (h : v.source = w.source) : Owns db u v ↔ Owns db u w := by
  unfold Owns
  rw [show v.userID = w.userID from congrArg VideoSource.userID h,
    show v.donationID = w.donationID from congrArg VideoSource.donationID h]

theorem Owns.of_extends {a b : Db} (h : Extends a b) (ha : a.Good)
    (hv : v ∈ a.videos)
    (hu : Owns b u v.toVideoValues) : Owns a u v.toVideoValues := by
  obtain ⟨user, -, howns⟩ := (ha.video v hv).owner
  rw [hu.unique (howns.mono h)]
  exact howns

/-- A row that an effect writes to the video table, for a committed
store. -/
inductive RowWritten (log : List Commit) (db : Db) (source : Source)
    (locks : List UserLock) (v : Video) : Prop
  | fresh (u : UserID) (huser : ∃ user ∈ db.users, user.userID = u)
      (hfree : ∀ w ∈ db.videos, w.videoID ≠ v.videoID)
      (howns : Owns db u v.toVideoValues) (mode : LockMode)
      (hlock : ⟨u, mode⟩ ∈ locks) (hmode : mode.compatible .update = false)
      (hamount : Inserted (currencyOf u log) source v.queueAmount)
  | same (old : Video) (hold : old ∈ db.videos)
      (hsource : v.source = old.source)
      (hchange : ∀ u, changeOf u source = none)
      (hamount : v.queueAmount = old.queueAmount)
  | edited (old : Video) (hold : old ∈ db.videos)
      (hsource : v.source = old.source) (userID : UserID)
      (details : VideoDetails)
      (h : source = .inl (.updateVideo userID v.videoID details))
  | converted (old : Video) (hold : old ∈ db.videos)
      (hsource : v.source = old.source) (change : CurrencyChange)
      (stage : CurrencyStage)
      (h : source = .inr (.setQueueCurrency change stage))
      (howns : Owns db change.userID old.toVideoValues)
      (hlock : ⟨change.userID, .update⟩ ∈ locks)
      (hne : currencyOf change.userID log ≠ change.queueCurrency)
      (amount amount' : Money) (hamount : old.queueAmount = some amount)
      (hconvert : convertAmount
        (change.factor (currencyOf change.userID log)) amount = .ok amount')
      (hamount' : v.queueAmount = some amount')
      (hpriority : v.videoPriorityID = old.videoPriorityID)

theorem source_videoID {v w : VideoValues} (h : v.source = w.source) :
    v.videoID = w.videoID := congrArg VideoSource.videoID h

/-- Every video of the user with an amount that its owner has not edited
is among the written rows. -/
def AllConverted (log : List Commit) (db : Db) (userID : UserID)
    (videos : Table fun v : Video => v.videoID) : Prop :=
  ∀ v ∈ db.videos, Owns db userID v.toVideoValues → v.queueAmount.isSome →
    Unedited log v.videoID → ∃ w ∈ videos, w.videoID = v.videoID

/-- All thresholds of the user are converted, and no others. -/
structure Repriced (db : Db) (change : CurrencyChange)
    (previous : QueueCurrency)
    (priorities : Table VideoPriority.videoPriorityID) : Prop where
  rows : ∀ q ∈ priorities, ∃ p ∈ db.priorities, p.userID = change.userID
    ∧ convertThreshold (change.factor previous) p = .ok q
  all : ∀ p ∈ db.priorities, p.userID = change.userID →
    ∃ q ∈ priorities, convertThreshold (change.factor previous) p = .ok q

-- =================================== effects

/-- What is known of an effect when it commits. -/
structure Lands (log : List Commit) (db : Db) (source : Source) (w : Db)
    (locks : List UserLock) : Prop where
  sound : Sound db w
  videos : ∀ v ∈ w.videos, RowWritten log db source locks v
  users : ∀ u ∈ w.users,
    (u.queueCurrency = .rub ∧ (∀ user ∈ db.users, user.userID ≠ u.userID)
      ∧ ∀ userID, changeOf userID source = none)
    ∨ ∃ change stage, source = .inr (.setQueueCurrency change stage)
      ∧ u.userID = change.userID
      ∧ u.queueCurrency = change.queueCurrency
  priorities : ∀ q ∈ w.priorities,
    (∃ p ∈ db.priorities, p.videoPriorityID = q.videoPriorityID
      ∧ p.userID = q.userID)
    ∨ (∀ user ∈ db.users, user.userID ≠ q.userID)
    ∨ ⟨q.userID, .noKeyUpdate⟩ ∈ locks
  change : ∀ change stage, source = .inr (.setQueueCurrency change stage) →
    ⟨change.userID, .update⟩ ∈ locks
      ∧ (∃ user ∈ db.users, user.userID = change.userID)
      ∧ (currencyOf change.userID log = change.queueCurrency ∧ w = .empty
        ∨ currencyOf change.userID log ≠ change.queueCurrency
          ∧ AllConverted log db change.userID w.videos
          ∧ ∃ u ∈ w.users, u.userID = change.userID)

/-- The committed amounts and currencies are what their histories make
of them. -/
structure Histories (log : List Commit) (db : Db) : Prop where
  users : ∀ user ∈ db.users,
    user.queueCurrency = currencyOf user.userID log
  strangers : ∀ u, (∀ user ∈ db.users, user.userID ≠ u) →
    changes u log = []
  videos : ∀ v ∈ db.videos, ∀ u, Owns db u v.toVideoValues →
    Unedited log v.videoID → AmountHistory u log v

theorem Unedited.of_snoc {log : List Commit} {c : Commit} {id : VideoID}
    (h : Unedited (log ++ [c]) id) : Unedited log id :=
  fun c' hc' => h c' (List.mem_append_left _ hc')

/-- What is written by a change of the currency that is already
stored. -/
theorem apply_same {amount : Option Money} :
    change.apply (change.queueCurrency, amount)
      = (change.queueCurrency, amount) := by
  unfold CurrencyChange.apply
  rw [if_pos rfl]

theorem apply_none {c : QueueCurrency} :
    change.apply (c, none) = (change.queueCurrency, none) := by
  unfold CurrencyChange.apply
  split <;> rfl

theorem apply_some {c : QueueCurrency}
    {amount amount' : Money} (hne : c ≠ change.queueCurrency)
    (h : convertAmount (change.factor c) amount = .ok amount') :
    change.apply (c, some amount)
      = (change.queueCurrency, some amount') := by
  unfold CurrencyChange.apply
  rw [if_neg hne, Option.bind_some, h]
  rfl

/-- An effect that commits leaves every history right. -/
theorem Histories.lands {log : List Commit} {db : Db} (hdb : db.Good)
    (h : Histories log db) {source : Source} {w : Db}
    {locks : List UserLock} (hw : Lands log db source w locks) :
    Histories (log ++ [⟨source, w⟩]) (db.overlay w) where
  users user huser := by
    rcases Table.mem_overlay.mp huser with huser | ⟨huser, hnot⟩
    · rcases hw.users user huser with ⟨hrub, hnone, hchange⟩
          | ⟨change, stage, hsource, hid, hcurrency⟩
      · rw [currencyOf_snoc_none (hchange user.userID), hrub]
        unfold currencyOf
        rw [h.strangers user.userID hnone]
        rfl
      · have hchange : changeOf user.userID source = some change := by
          rw [hsource]
          exact if_pos hid.symm
        rw [currencyOf_snoc_some (c := ⟨source, w⟩) hchange, hcurrency]
    · cases hchange : changeOf user.userID source with
      | none =>
          rw [currencyOf_snoc_none (c := ⟨source, w⟩) hchange]
          exact h.users user huser
      | some change =>
          obtain ⟨hid, stage, hsource⟩ := changeOf_eq_some hchange
          rw [currencyOf_snoc_some (c := ⟨source, w⟩) hchange]
          obtain ⟨-, -, ⟨hsame, -⟩ | ⟨-, -, u, hu, huid⟩⟩ :=
            hw.change change stage hsource
          · rw [← hsame, hid]
            exact h.users user huser
          · exact absurd (huid.trans hid) (hnot u hu)
  strangers u hu := by
    have hnone : ∀ user ∈ db.users, user.userID ≠ u := by
      intro user huser he
      obtain ⟨user', huser', hid⟩ := hw.sound.keeps.users user huser
      exact hu user' huser' (hid.trans he)
    rw [changes_snoc, h.strangers u hnone, List.nil_append]
    cases hchange : changeOf u source with
    | none => rfl
    | some change =>
        exfalso
        obtain ⟨hid, stage, hsource⟩ := changeOf_eq_some hchange
        obtain ⟨-, ⟨user, huser, huid⟩, -⟩ := hw.change change stage hsource
        exact hnone user huser (huid.trans hid)
  videos v hv u howns hunedited := by
    rcases Table.mem_overlay.mp hv with hv | ⟨hv, hnot⟩
    · cases hw.videos v hv with
      | fresh u₀ _ _ howns₀ _ _ _ hamount =>
          rw [howns.unique (howns₀.mono hw.sound.keeps)]
          exact AmountHistory.insert hamount hv rfl
      | same old hold hsource hchange hamount =>
          have hid := source_videoID hsource
          rw [Owns.of_source hsource] at howns
          have howns₀ := Owns.of_extends hw.sound.keeps hdb hold howns
          rw [hid] at hunedited
          exact (h.videos old hold u howns₀ hunedited.of_snoc).keep
            (hchange u) hid hamount
      | edited old hold hsource userID details hedit =>
          exact absurd hedit
            (hunedited ⟨source, w⟩ (by simp) userID details)
      | converted old hold hsource change stage hchange howns₀ _ hne amount
          amount' hamount hconvert hamount' _ =>
          have hid := source_videoID hsource
          rw [Owns.of_source hsource] at howns
          have hu : u = change.userID :=
            howns.unique (howns₀.mono hw.sound.keeps)
          rw [hid] at hunedited
          rw [hu]
          have hhistory := h.videos old hold _ howns₀ hunedited.of_snoc
          have hof : changeOf change.userID source = some change := by
            rw [hchange]
            exact if_pos rfl
          refine hhistory.change (c := ⟨source, w⟩) hof hid ?_ ?_
          · rw [hamount, hamount']
            exact apply_some hne hconvert
          · rw [hamount']
            exact fun _ => rfl
    · have howns₀ := Owns.of_extends hw.sound.keeps hdb hv howns
      have hhistory := h.videos v hv u howns₀ hunedited.of_snoc
      cases hchange : changeOf u source with
      | none => exact hhistory.keep hchange rfl rfl
      | some change =>
          obtain ⟨hid, stage, hsource⟩ := changeOf_eq_some hchange
          refine hhistory.change (c := ⟨source, w⟩) hchange rfl ?_ id
          obtain ⟨-, -, ⟨hsame, -⟩ | ⟨-, hall, -⟩⟩ :=
            hw.change change stage hsource
          · rw [← hid, hsame]
            exact apply_same
          · cases hamount : v.queueAmount with
            | none => exact apply_none
            | some amount =>
                exfalso
                rw [hid] at hall
                obtain ⟨v', hv', hvid⟩ := hall v hv howns₀
                  (by rw [hamount]; rfl) hunedited.of_snoc
                exact hnot v' hv' hvid

-- ===================================== calls

/-- A row that a call changes keeps its amount, or is edited. -/
theorem Change.row_written {db : Db} {call : Call} {old : Video}
    (hold : old ∈ db.videos) (h : Change db (.inl call) old v)
    (log : List Commit) (locks : List UserLock) :
    RowWritten log db (.inl call) locks v := by
  have hsource := h.keeps_source
  have hid := h.videoID
  cases h with
  | @edited userID videoID details _ _ hid' _ h =>
      refine RowWritten.edited old hold hsource userID details ?_
      rw [hid, hid']
  | moved _ _ h =>
      exact RowWritten.same old hold hsource (fun _ => rfl)
        (by rw [h.values]; rfl)
  | status _ hv =>
      exact RowWritten.same old hold hsource (fun _ => rfl) (by rw [hv])
  | backfilled _ hv =>
      exact RowWritten.same old hold hsource (fun _ => rfl) (by rw [hv])

/-- A call other than an insert of a video. -/
theorem call_row_written {call : Call} {db : Db}
    (h : call.perform db = .ok effect)
    (hv : v ∈ effect.written.videos) (log : List Commit) :
    RowWritten log db (.inl call) effect.locks v := by
  have hwrote := (call_wrote h).videos v hv
  generalize hs : (Sum.inl call : Source) = source at hwrote
  cases hwrote with
  | changed hold hchange =>
      rw [← hs] at hchange ⊢
      exact hchange.row_written hold log effect.locks
  | scanned => cases hs
  | added =>
      cases hs
      obtain ⟨r, hr, rfl⟩ := map_eq_ok h
      obtain ⟨v', new, hw, hlocks, hfree, hstored, huser, -, hamount, hex⟩ :=
        addManualVideo_ok hr
      rw [hw] at hv
      obtain rfl := Table.mem_row.mp hv
      refine RowWritten.fresh _ hex hfree ?_ .keyShare ?_ rfl ?_
      · rw [hstored.owns]
        exact Or.inl huser
      · rw [hlocks]
        exact List.mem_singleton.mpr rfl
      · rw [show v.queueAmount = new.queueAmount by rw [hstored.values]; rfl,
          hamount]
        exact Inserted.added

/-- A call that commits lands. -/
theorem call_lands {call : Call} {db : Db} (hdb : db.Good)
    (h : call.perform db = .ok effect) (log : List Commit) :
    Lands log db (.inl call) effect.written effect.locks where
  sound := sound_call hdb h
  videos v hv := call_row_written h hv log
  users u hu := by
    have hwrote := (call_wrote h).users u hu
    generalize hs : (Sum.inl call : Source) = source at hwrote
    cases hwrote with
    | created hfree => exact Or.inl ⟨rfl, hfree, fun _ => rfl⟩
    | changed => cases hs
  priorities q hq := by
    have hwrote := (call_wrote h).priorities q hq
    generalize hs : (Sum.inl call : Source) = source at hwrote
    cases hwrote with
    | created _ huser => exact Or.inr (Or.inl huser)
    | completed huser hfound _ =>
        cases hs
        obtain ⟨r, hr, rfl⟩ := map_eq_ok h
        unfold getOrCreateUserId at hr
        rw [hfound] at hr
        obtain ⟨priorities, hw, hlocks, howner, -⟩ :=
          completeUser_ok hdb huser hr
        rw [hw] at hq
        refine Or.inr (Or.inr ?_)
        rw [hlocks, howner q hq]
        exact List.mem_singleton.mpr rfl
    | updated hp hid huser _ =>
        exact Or.inl ⟨_, hp, hid.symm, huser.symm⟩
    | converted => cases hs
  change _ _ hs := by cases hs

-- ============================== transactions

/-- A transaction holds the lock of a user. -/
structure Locked (db : Db) (locks : List UserLock) (u : UserID)
    (mode : LockMode) : Prop where
  user : ∃ user ∈ db.users, user.userID = u
  lock : ⟨u, mode⟩ ∈ locks
  excludes : mode.compatible .update = false

/-- What an open currency change knows, by its stage. -/
inductive CurrencyProgress (log : List Commit) (db w : Db)
    (locks : List UserLock) (change : CurrencyChange) : CurrencyStage → Prop
  | lock (hw : w = .empty) : CurrencyProgress log db w locks change .lock
  | thresholds (hlocked : Locked db locks change.userID .update)
      (hne : currencyOf change.userID log ≠ change.queueCurrency)
      (hw : w = .empty) :
      CurrencyProgress log db w locks change
        (.thresholds (currencyOf change.userID log))
  | repriced {stage : CurrencyStage}
      (hlocked : Locked db locks change.userID .update)
      (hne : currencyOf change.userID log ≠ change.queueCurrency)
      (hprices : Repriced db change (currencyOf change.userID log)
        w.priorities)
      (hvideos : w.videos = .empty)
      (hstage : stage = .retain (currencyOf change.userID log)
        ∨ stage = .amounts (currencyOf change.userID log)) :
      CurrencyProgress log db w locks change stage
  | converted (hlocked : Locked db locks change.userID .update)
      (hne : currencyOf change.userID log ≠ change.queueCurrency)
      (hprices : Repriced db change (currencyOf change.userID log)
        w.priorities)
      (hall : AllConverted log db change.userID w.videos) :
      CurrencyProgress log db w locks change
        (.currency (currencyOf change.userID log))
  | unchanged (hlocked : Locked db locks change.userID .update)
      (hsame : currencyOf change.userID log = change.queueCurrency)
      (hw : w = .empty) : CurrencyProgress log db w locks change .commit
  | changed (hlocked : Locked db locks change.userID .update)
      (hne : currencyOf change.userID log ≠ change.queueCurrency)
      (hprices : Repriced db change (currencyOf change.userID log)
        w.priorities)
      (hall : AllConverted log db change.userID w.videos)
      (huser : ∃ u ∈ w.users, u.userID = change.userID) :
      CurrencyProgress log db w locks change .commit

/-- A completion has converted its amount into the currency of the owner,
whose row it holds. -/
def Priced (log : List Commit) (db : Db) (locks : List UserLock)
    (completion : Completion) (amount : Option Money) : Prop :=
  ∃ d ∈ db.donations, d.donationID = completion.job.donationID
    ∧ Locked db locks d.userID .share
    ∧ convertWithDefaultRate completion.job.amount completion.job.currency
      (currencyOf d.userID log) = .ok amount

/-- What an open transaction knows. -/
def Txn.Progress (log : List Commit) (db w : Db) (locks : List UserLock) :
    Txn → Prop
  | .setQueueCurrency change stage =>
      CurrencyProgress log db w locks change stage
  | .complete completion (.insert amount _) =>
      Priced log db locks completion amount
  | .completeMetadata _ .job | .completeMetadata _ .video =>
      w.videos = .empty
  | _ => True

/-- What is known of an open transaction and its rows. -/
structure Held (log : List Commit) (db : Db) (txn : Txn) (w : Db)
    (locks : List UserLock) : Prop where
  videos : ∀ v ∈ w.videos, RowWritten log db (.inr txn) locks v
  users : ∀ u ∈ w.users, ∃ change stage,
    txn = .setQueueCurrency change stage ∧ u.userID = change.userID
      ∧ u.queueCurrency = change.queueCurrency
  priorities : ∀ q ∈ w.priorities, ∃ p ∈ db.priorities,
    p.videoPriorityID = q.videoPriorityID ∧ p.userID = q.userID
  donations : ∀ d ∈ w.donations, ∃ d₀ ∈ db.donations,
    d₀.donationID = d.donationID ∧ d₀.userID = d.userID
  progress : txn.Progress log db w locks

/-- A transaction that is through lands. -/
theorem Held.lands {log : List Commit} {db : Db} {txn : Txn} {w : Db}
    {locks : List UserLock} (h : Held log db txn w locks)
    (hsound : Sound db w) (hend : txn.statement = none) :
    Lands log db (.inr txn) w locks where
  sound := hsound
  videos := h.videos
  users u hu := by
    obtain ⟨change, stage, rfl, hid, hcurrency⟩ := h.users u hu
    exact Or.inr ⟨change, stage, rfl, hid, hcurrency⟩
  priorities q hq := Or.inl (h.priorities q hq)
  change change stage hsource := by
    cases hsource
    have hstage : stage = .commit := by
      cases stage with
      | commit => rfl
      | lock | thresholds | retain | amounts | currency => cases hend
    have hprogress := h.progress
    rw [hstage] at hprogress
    cases hprogress with
    | unchanged hlocked hsame hw =>
        exact ⟨hlocked.lock, hlocked.user, Or.inl ⟨hsame, hw⟩⟩
    | changed hlocked hne _ hall huser =>
        exact ⟨hlocked.lock, hlocked.user, Or.inr ⟨hne, hall, huser⟩⟩
    | repriced _ _ _ _ hstage =>
        rcases hstage with hstage | hstage <;> cases hstage

-- ================================= stability

/-- The locks of two effects do not exclude each other. -/
def Compatible (locks locks' : List UserLock) : Prop :=
  ∀ held ∈ locks, ∀ lock ∈ locks', held.compatible lock = true

/-- Locks on one user that exclude each other are not both held. -/
theorem Compatible.absurd {locks locks' : List UserLock}
    (h : Compatible locks locks') {mode' : LockMode}
    (hheld : ⟨u, mode⟩ ∈ locks) (hlock : ⟨u, mode'⟩ ∈ locks')
    (hmode : mode.compatible mode' = false) : False := by
  have hc := h _ hheld _ hlock
  unfold UserLock.compatible at hc
  dsimp only at hc
  rw [hmode, Bool.or_false, bne_self_eq_false] at hc
  cases hc

section Stable

variable {log : List Commit} {db w : Db} {locks : List UserLock}
  {source : Source} {w' : Db} {locks' : List UserLock}

/-- No other effect changes the currency of a locked user. -/
theorem Locked.unchanged
    (h : Locked db locks u mode) (hw' : Lands log db source w' locks')
    (hlocks : Compatible locks locks') : changeOf u source = none := by
  cases hchange : changeOf u source with
  | none => rfl
  | some change =>
      exfalso
      obtain ⟨hid, stage, hsource⟩ := changeOf_eq_some hchange
      obtain ⟨hlock, -⟩ := hw'.change change stage hsource
      rw [hid] at hlock
      exact hlocks.absurd h.lock hlock h.excludes

theorem Locked.currencyOf
    (h : Locked db locks u mode) (hw' : Lands log db source w' locks')
    (hlocks : Compatible locks locks') :
    currencyOf u (log ++ [⟨source, w'⟩]) = Videos.currencyOf u log :=
  currencyOf_snoc_none (h.unchanged hw' hlocks)

theorem Locked.mono {a b : Db} (hab : Extends a b)
    (h : Locked a locks u mode) :
    Locked b locks u mode where
  user := by
    obtain ⟨user, huser, hid⟩ := h.user
    obtain ⟨user', huser', hid'⟩ := hab.users user huser
    exact ⟨user', huser', hid'.trans hid⟩
  lock := h.lock
  excludes := h.excludes

/-- A row without a version in an overlay is still there. -/
theorem mem_overlay_of_apart {α κ : Type*} {key : α → κ} [DecidableEq κ]
    {t u w : Table key} (hapart : w.Apart u) {a b : α} (ha : a ∈ t)
    (hb : b ∈ w) (hk : key b = key a) : a ∈ t.overlay u := by
  refine Table.mem_overlay.mpr (Or.inr ⟨ha, fun c hc he => ?_⟩)
  exact hapart b hb c hc (hk.trans he.symm)

/-- What was written of a video stays true past the commits of others. -/
theorem RowWritten.stable {txn : Txn}
    (hv : v ∈ w.videos) (h : RowWritten log db (.inr txn) locks v)
    (hw' : Lands log db source w' locks') (hapart : w.Apart w')
    (hlocks : Compatible locks locks') :
    RowWritten (log ++ [⟨source, w'⟩]) (db.overlay w') (.inr txn) locks
      v := by
  have hvideos : w.videos.Apart w'.videos := hapart.2.2.2.2.1
  cases h with
  | fresh u huser hfree howns mode hlock hmode hamount =>
      have hlocked : Locked db locks u mode := ⟨huser, hlock, hmode⟩
      refine RowWritten.fresh u (hlocked.mono hw'.sound.keeps).user ?_
        (howns.mono hw'.sound.keeps) mode hlock hmode ?_
      · intro x hx
        rcases Table.mem_overlay.mp hx with hx | ⟨hx, -⟩
        · exact (hvideos v hv x hx).symm
        · exact hfree x hx
      · rw [hlocked.currencyOf hw' hlocks]
        exact hamount
  | same old hold hsource hchange hamount =>
      exact RowWritten.same old
        (mem_overlay_of_apart hvideos hold hv (source_videoID hsource))
        hsource hchange hamount
  | edited old hold hsource userID details h => cases h
  | converted old hold hsource change stage h howns hlock hne amount amount'
      hamount hconvert hamount' hpriority =>
      have hcurrency : currencyOf change.userID (log ++ [⟨source, w'⟩])
          = currencyOf change.userID log := by
        refine currencyOf_snoc_none ?_
        cases hother : changeOf change.userID source with
        | none => rfl
        | some other =>
            exfalso
            obtain ⟨hid, stage', hsource'⟩ := changeOf_eq_some hother
            obtain ⟨hlock', -⟩ := hw'.change other stage' hsource'
            rw [hid] at hlock'
            exact hlocks.absurd hlock hlock' rfl
      refine RowWritten.converted old
        (mem_overlay_of_apart hvideos hold hv (source_videoID hsource))
        hsource change stage h (howns.mono hw'.sound.keeps) hlock ?_ amount
        amount' hamount ?_ hamount' hpriority
      · rw [hcurrency]
        exact hne
      · rw [hcurrency]
        exact hconvert

/-- Another effect writes no amount of the user that is not among the
converted rows. -/
theorem AllConverted.stable (hdb : db.Good)
    (hlocked : Locked db locks u .update) (h : AllConverted log db u w.videos)
    (hw' : Lands log db source w' locks') (hapart : w.Apart w')
    (hlocks : Compatible locks locks') :
    AllConverted (log ++ [⟨source, w'⟩]) (db.overlay w') u w.videos := by
  intro v hv howns hsome hunedited
  have hvideos : w.videos.Apart w'.videos := hapart.2.2.2.2.1
  -- a version of a row that is among them would have had to wait
  have hversion : ∀ old ∈ db.videos, v ∈ w'.videos →
      v.source = old.source → old.queueAmount.isSome → False := by
    intro old hold hvw hsource holdSome
    have hid := source_videoID hsource
    rw [Owns.of_source hsource] at howns
    have howns₀ := Owns.of_extends hw'.sound.keeps hdb hold howns
    rw [hid] at hunedited
    obtain ⟨x, hx, hxid⟩ := h old hold howns₀ holdSome hunedited.of_snoc
    exact hvideos x hx v hvw (hxid.trans hid.symm)
  rcases Table.mem_overlay.mp hv with hvw | ⟨hvdb, -⟩
  · exfalso
    cases hw'.videos v hvw with
    | fresh u₀ _ _ howns₀ mode hlock _ _ =>
        have hu : u = u₀ := howns.unique (howns₀.mono hw'.sound.keeps)
        rw [← hu] at hlock
        refine hlocks.absurd hlocked.lock hlock ?_
        cases mode <;> rfl
    | same old hold hsource _ hamount =>
        exact hversion old hold hvw hsource (by rw [← hamount]; exact hsome)
    | edited old hold hsource userID details hedit =>
        exact hunedited ⟨source, w'⟩ (by simp) userID details hedit
    | converted old hold hsource change stage _ _ _ _ amount _ hamount _ _ _ =>
        exact hversion old hold hvw hsource (by rw [hamount]; rfl)
  · exact h v hvdb (Owns.of_extends hw'.sound.keeps hdb hvdb howns) hsome
      hunedited.of_snoc

/-- Rewritten thresholds stay those of the user past the commits of others. -/
theorem Repriced.stable {previous : QueueCurrency}
    (hlocked : Locked db locks change.userID .update)
    (h : Repriced db change previous w.priorities)
    (hw' : Lands log db source w' locks') (hapart : w.Apart w')
    (hlocks : Compatible locks locks') :
    Repriced (db.overlay w') change previous w.priorities where
  rows q hq := by
    obtain ⟨p, hp, hu, hconvert⟩ := h.rows q hq
    exact ⟨p, mem_overlay_of_apart hapart.2.2.1 hp hq
      (convertThreshold_ok hconvert).1, hu, hconvert⟩
  all p hp hu := by
    rcases Table.mem_overlay.mp hp with hpw | ⟨hpdb, -⟩
    · exfalso
      rcases hw'.priorities p hpw with ⟨p₀, hp₀, hid, hu₀⟩ | hnone | hlock
      · obtain ⟨q, hq, hconvert⟩ := h.all p₀ hp₀ (hu₀.trans hu)
        exact hapart.2.2.1 q hq p hpw
          ((convertThreshold_ok hconvert).1.trans hid)
      · obtain ⟨user, huser, hid⟩ := hlocked.user
        exact hnone user huser (hid.trans hu.symm)
      · -- a user that is completed is locked as well
        rw [hu] at hlock
        exact hlocks.absurd hlocked.lock hlock rfl
    · exact h.all p hpdb hu

/-- The progress of a change of currency stays true past the commits of
others. -/
theorem CurrencyProgress.stable {stage : CurrencyStage} (hdb : db.Good)
    (h : CurrencyProgress log db w locks change stage)
    (hw' : Lands log db source w' locks') (hapart : w.Apart w')
    (hlocks : Compatible locks locks') :
    CurrencyProgress (log ++ [⟨source, w'⟩]) (db.overlay w') w locks change
      stage := by
  have hkeeps := hw'.sound.keeps
  cases h with
  | lock hw => exact CurrencyProgress.lock hw
  | thresholds hlocked hne hw =>
      rw [← hlocked.currencyOf hw' hlocks] at hne ⊢
      exact CurrencyProgress.thresholds (hlocked.mono hkeeps) hne hw
  | repriced hlocked hne hprices hvideos hstage =>
      rw [← hlocked.currencyOf hw' hlocks] at hne hprices hstage
      exact CurrencyProgress.repriced (hlocked.mono hkeeps) hne
        (hprices.stable hlocked hw' hapart hlocks) hvideos hstage
  | converted hlocked hne hprices hall =>
      have hall' := hall.stable hdb hlocked hw' hapart hlocks
      rw [← hlocked.currencyOf hw' hlocks] at hne hprices ⊢
      exact CurrencyProgress.converted (hlocked.mono hkeeps) hne
        (hprices.stable hlocked hw' hapart hlocks) hall'
  | unchanged hlocked hsame hw =>
      rw [← hlocked.currencyOf hw' hlocks] at hsame
      exact CurrencyProgress.unchanged (hlocked.mono hkeeps) hsame hw
  | changed hlocked hne hprices hall huser =>
      have hall' := hall.stable hdb hlocked hw' hapart hlocks
      rw [← hlocked.currencyOf hw' hlocks] at hne hprices
      exact CurrencyProgress.changed (hlocked.mono hkeeps) hne
        (hprices.stable hlocked hw' hapart hlocks) hall' huser

theorem Priced.stable {completion : Completion} {amount : Option Money}
    (h : Priced log db locks completion amount)
    (hw' : Lands log db source w' locks')
    (hlocks : Compatible locks locks') :
    Priced (log ++ [⟨source, w'⟩]) (db.overlay w') locks completion
      amount := by
  obtain ⟨d, hd, hid, hlocked, hconvert⟩ := h
  obtain ⟨d', hd', hid', hu'⟩ := hw'.sound.keeps.donations d hd
  refine ⟨d', hd', hid'.trans hid, ?_, ?_⟩
  · rw [hu']
    exact hlocked.mono hw'.sound.keeps
  · rw [hu', hlocked.currencyOf hw' hlocks]
    exact hconvert

/-- What an open transaction knows stays true when another effect
commits. -/
theorem Held.stable {txn : Txn} (hdb : db.Good)
    (h : Held log db txn w locks) (hw' : Lands log db source w' locks')
    (hapart : w.Apart w') (hlocks : Compatible locks locks') :
    Held (log ++ [⟨source, w'⟩]) (db.overlay w') txn w locks where
  videos v hv := (h.videos v hv).stable hv hw' hapart hlocks
  users := h.users
  priorities q hq := by
    obtain ⟨p, hp, hid, hu⟩ := h.priorities q hq
    exact ⟨p, mem_overlay_of_apart hapart.2.2.1 hp hq hid.symm, hid, hu⟩
  donations d hd := by
    obtain ⟨d₀, hd₀, hid, hu⟩ := h.donations d hd
    obtain ⟨d₁, hd₁, hid₁, hu₁⟩ := hw'.sound.keeps.donations d₀ hd₀
    exact ⟨d₁, hd₁, hid₁.trans hid, hu₁.trans hu⟩
  progress := by
    have hprogress := h.progress
    cases txn with
    | setQueueCurrency change stage =>
        exact CurrencyProgress.stable hdb hprogress hw' hapart hlocks
    | complete completion stage =>
        cases stage with
        | insert amount videos => exact Priced.stable hprogress hw' hlocks
        | guard | convert | parsed | commit => trivial
    | completeMetadata completion stage =>
        cases stage with
        | job | video => exact hprogress
        | commit => trivial

end Stable

-- ================================ statements

theorem Next.changeOf {txn txn' : Txn} {view : Db} {videoID : VideoID}
    (h : Next txn view videoID effect txn')
    (u : UserID) : changeOf u (.inr txn') = changeOf u (.inr txn) := by
  cases h <;> rfl

/-- What was written of a video stays true as its transaction goes on. -/
theorem RowWritten.next {log : List Commit} {db : Db} {txn txn' : Txn}
    {locks more : List UserLock} {view : Db} {videoID : VideoID}
    (hnext : Next txn view videoID effect txn')
    (h : RowWritten log db (.inr txn) locks v) :
    RowWritten log db (.inr txn') (locks ++ more) v := by
  cases h with
  | fresh u huser hfree howns mode hlock hmode hamount =>
      refine RowWritten.fresh u huser hfree howns mode
        (List.mem_append_left _ hlock) hmode ?_
      generalize hs : (Sum.inr txn : Source) = source at hamount
      generalize v.queueAmount = amount at hamount ⊢
      cases hamount with
      | added => cases hs
      | scanned hconvert =>
          cases hs
          cases hnext with
          | complete => exact Inserted.scanned hconvert
  | same old hold hsource hchange hamount =>
      exact RowWritten.same old hold hsource
        (fun u => (hnext.changeOf u).trans (hchange u)) hamount
  | edited old hold hsource userID details h => cases h
  | converted old hold hsource change stage h howns hlock hne amount amount'
      hamount hconvert hamount' hpriority =>
      cases h
      cases hnext with
      | @setQueueCurrency _ _ _ _ _ r _ _ =>
          exact RowWritten.converted old hold hsource change r.2 rfl howns
            (List.mem_append_left _ hlock) hne amount amount' hamount hconvert
            hamount' hpriority

section Statement

variable {log : List Commit} {db : Db} {txn txn' : Txn} {w : Db}
  {locks : List UserLock}

/-- A donation that a transaction sees is committed, in some version. -/
theorem Held.donation (h : Held log db txn w locks) {d : Donation}
    (hd : d ∈ (db.overlay w).donations) :
    ∃ d₀ ∈ db.donations, d₀.donationID = d.donationID
      ∧ d₀.userID = d.userID := by
  rcases Table.mem_overlay.mp hd with hd | ⟨hd, -⟩
  · exact h.donations d hd
  · exact ⟨d, hd, rfl, rfl⟩

theorem Held.owns (h : Held log db txn w locks)
    {v : VideoValues} (howns : Owns (db.overlay w) u v) : Owns db u v := by
  rcases howns with howns | ⟨hnone, d, hd, hvd, hdu⟩
  · exact Or.inl howns
  · obtain ⟨d₀, hd₀, hid, hu⟩ := h.donation hd
    exact Or.inr ⟨hnone, d₀, hd₀, by rw [hid]; exact hvd, hu.trans hdu⟩

theorem mem_overlay_empty {α κ : Type*} {key : α → κ} [DecidableEq κ]
    {t w : Table key} (hw : w = .empty) {a : α} (ha : a ∈ t.overlay w) :
    a ∈ t := by
  rw [hw, Table.overlay_empty] at ha
  exact ha

/-- A row that a statement of the transaction writes. -/
theorem Held.row_written (hdb : db.Good) (h : Held log db txn w locks)
    (hv : VideoWrite (db.overlay w) (.inr txn) v) :
    RowWritten log db (.inr txn) locks v := by
  have hprogress := h.progress
  generalize hs : (Sum.inr txn : Source) = source at hv
  cases hv with
  | added => cases hs
  | @scanned completion amount video videos videoID v hfree _ hstored =>
      cases hs
      obtain ⟨d, hd, hid, hlocked, hconvert⟩ := hprogress
      refine RowWritten.fresh d.userID hlocked.user ?_ ?_ .share
        hlocked.lock rfl ?_
      · intro x hx he
        obtain ⟨y, hy, hk, -⟩ :=
          Table.exists_overlay (w := w.videos) hx
        exact hfree y hy (hk.trans he)
      · rw [hstored.owns]
        exact Or.inr ⟨rfl, d, hd, congrArg some hid.symm, rfl⟩
      · rw [show v.queueAmount = amount by rw [hstored.values]; rfl]
        exact Inserted.scanned hconvert
  | @changed _ old _ hold hchange =>
      have hsource := hchange.keeps_source
      cases hchange with
      | edited => cases hs
      | moved => cases hs
      | status => cases hs
      | backfilled => cases hs
      | @converted change previous _ _ amount amount' hown hamount hconvert
          hstored =>
          cases hs
          generalize hstage : CurrencyStage.amounts previous = stage
            at hprogress
          change CurrencyProgress log db w locks change stage at hprogress
          cases hprogress with
          | repriced hlocked hne hprices hvideos hstages =>
              have hprevious : previous = currencyOf change.userID log := by
                rcases hstages with hstages | hstages
                · rw [← hstage] at hstages
                  cases hstages
                · rw [← hstage] at hstages
                  injection hstages
              rw [hprevious] at hconvert
              have hold₀ := mem_overlay_empty hvideos hold
              refine RowWritten.converted old hold₀ hsource change _ rfl
                (h.owns hown) hlocked.lock hne amount amount' hamount hconvert
                (by rw [hstored.values]; rfl) ?_
              refine Stored.retains (hdb.video old hold₀).ranked ?_
                (fun hs => ?_) hstored
              · unfold VideoValues.Unranked
                rw [hamount]
                exact Iff.rfl
              · exact ⟨Or.inr rfl, rfl, rfl, rfl, rfl, rfl, hs⟩
          | lock | thresholds | converted | unchanged | changed => cases hstage
      | timed _ _ _ hstored =>
          cases hs
          have hold₀ := mem_overlay_empty hprogress hold
          exact RowWritten.same old hold₀ hsource (fun _ => rfl)
            (by rw [hstored.values]; rfl)
      | titled _ _ hvalues =>
          cases hs
          have hold₀ := mem_overlay_empty hprogress hold
          exact RowWritten.same old hold₀ hsource (fun _ => rfl)
            (by rw [hvalues])

theorem overlay_empty (db : Db) : db.overlay .empty = db :=
  Sessions.Versioned.overlay_empty db

theorem empty_overlay (db : Db) : Db.empty.overlay db = db :=
  Sessions.Versioned.empty_overlay db

/-- Each statement of a change of currency carries its progress on. -/
theorem currency_progress {stage : CurrencyStage}
    (hhistories : Histories log db)
    (h : Held log db (.setQueueCurrency change stage) w locks) {f}
    (hf : change.statement stage = some f) {r : Written × CurrencyStage}
    (hr : f (db.overlay w) = .ok r) :
    CurrencyProgress log db (w.overlay r.1.written) (locks ++ r.1.locks)
      change r.2 := by
  have hprogress := h.progress
  change CurrencyProgress log db w locks change stage at hprogress
  have hextend : ∀ {u mode}, Locked db locks u mode →
      Locked db (locks ++ r.1.locks) u mode := fun hl =>
    ⟨hl.user, List.mem_append_left _ hl.lock, hl.excludes⟩
  cases hprogress with
  | lock hw =>
      cases hf
      rw [hw, overlay_empty] at hr
      obtain ⟨heffect, user, huser, hid, hstage⟩ := CurrencyChange.lock_ok hr
      have hcurrency : user.queueCurrency
          = currencyOf change.userID log := by
        rw [hhistories.users user huser, hid]
      have hlocked : Locked db (locks ++ r.1.locks) change.userID
          .update := by
        refine ⟨⟨user, huser, hid⟩, List.mem_append_right _ ?_, rfl⟩
        rw [heffect]
        exact List.mem_singleton.mpr rfl
      have hempty : w.overlay r.1.written = .empty := by
        rw [hw, heffect, overlay_empty]
      rw [hempty, hstage, hcurrency]
      split
      case isTrue hsame =>
        exact CurrencyProgress.unchanged hlocked hsame rfl
      case isFalse hne => exact CurrencyProgress.thresholds hlocked hne rfl
  | thresholds hlocked hne hw =>
      cases hf
      rw [hw, overlay_empty] at hr
      obtain ⟨hstage, priorities, heffect, hrows, hall⟩ :=
        CurrencyChange.thresholds_ok hr
      rw [hw, empty_overlay, heffect, hstage]
      rw [heffect] at hextend
      exact CurrencyProgress.repriced (hextend hlocked) hne ⟨hrows, hall⟩ rfl
        (Or.inl rfl)
  | repriced hlocked hne hprices hvideos hstage =>
      rcases hstage with rfl | rfl
      · cases hf
        cases hr
        rw [show w.overlay _ = w from overlay_empty w]
        exact CurrencyProgress.repriced (hextend hlocked) hne hprices hvideos
          (Or.inr rfl)
      · cases hf
        obtain ⟨hstage, videos, heffect, -, hall⟩ :=
          CurrencyChange.amounts_ok hr
        rw [heffect, hstage]
        rw [heffect] at hextend
        refine CurrencyProgress.converted (hextend hlocked) hne ?_ ?_
        · rw [show (w.overlay { Db.empty with videos }).priorities
            = w.priorities from Table.overlay_empty _]
          exact hprices
        · rw [show (w.overlay { Db.empty with videos }).videos
            = w.videos.overlay videos from rfl, hvideos, Table.empty_overlay]
          intro v hv howns hsome _
          have hview : v ∈ (db.overlay w).videos := by
            rw [show (db.overlay w).videos = db.videos.overlay w.videos
              from rfl, hvideos, Table.overlay_empty]
            exact hv
          refine hall v hview hsome ?_
          rcases howns with howns | ⟨hnone, d, hd, hvd, hdu⟩
          · exact Or.inl howns
          · obtain ⟨d', hd', hk, rfl | hdw⟩ :=
              Table.exists_overlay (w := w.donations) hd
            · exact Or.inr ⟨hnone, d', hd', hvd, hdu⟩
            · obtain ⟨d₀, hd₀, hid₀, hu₀⟩ := h.donations d' hdw
              have heq : d₀ = d := Table.eq_of_key hd₀ hd (hid₀.trans hk)
              refine Or.inr ⟨hnone, d', hd', ?_, ?_⟩
              · rw [hvd]
                exact congrArg some hk.symm
              · rw [← hu₀, heq]
                exact hdu
  | converted hlocked hne hprices hall =>
      cases hf
      obtain ⟨hstage, users, heffect, hrows⟩ := CurrencyChange.currency_ok hr
      rw [heffect, hstage]
      refine CurrencyProgress.changed (hextend hlocked) hne ?_ ?_ ?_
      · rw [show (w.overlay { Db.empty with users }).priorities
          = w.priorities from Table.overlay_empty _]
        exact hprices
      · rw [show (w.overlay { Db.empty with users }).videos = w.videos
          from Table.overlay_empty _]
        exact hall
      · obtain ⟨user, huser, hid⟩ := hlocked.user
        obtain ⟨user', huser', hid', -⟩ :=
          Table.exists_overlay (w := w.users) huser
        refine ⟨_, Table.mem_overlay.mpr (Or.inl ((hrows _).mpr
          ⟨user', huser', hid'.trans hid, rfl⟩)), ?_⟩
        exact hid'.trans hid
  | unchanged => cases hf
  | changed => cases hf

/-- Each statement of a transaction keeps what it holds. -/
theorem Held.next {videoID : VideoID} (hdb : db.Good)
    (hhistories : Histories log db) (h : Held log db txn w locks)
    (hnext : Next txn (db.overlay w) videoID effect txn') :
    Held log db txn' (w.overlay effect.written)
      (locks ++ effect.locks) where
  videos v hv := by
    rcases Table.mem_overlay.mp hv with hv | ⟨hv, -⟩
    · exact (h.row_written hdb (hnext.wrote.videos v hv)).next hnext
    · exact (h.videos v hv).next hnext
  users u hu := by
    rcases Table.mem_overlay.mp hu with hu | ⟨hu, -⟩
    · have hwrite := hnext.wrote.users u hu
      generalize hs : (Sum.inr txn : Source) = source at hwrite
      cases hwrite with
      | created => cases hs
      | changed hu₀ hid =>
          cases hs
          cases hnext with
          | setQueueCurrency => exact ⟨_, _, rfl, hid, rfl⟩
    · obtain ⟨change, stage, rfl, hid, hcurrency⟩ := h.users u hu
      cases hnext with
      | setQueueCurrency => exact ⟨change, _, rfl, hid, hcurrency⟩
  priorities q hq := by
    rcases Table.mem_overlay.mp hq with hq | ⟨hq, -⟩
    · have hwrite := hnext.wrote.priorities q hq
      generalize hs : (Sum.inr txn : Source) = source at hwrite
      cases hwrite with
      | created => cases hs
      | completed => cases hs
      | updated => cases hs
      | @converted change previous p _ hp hu hconvert =>
          obtain ⟨hid, huser, -⟩ := convertThreshold_ok hconvert
          rcases Table.mem_overlay.mp hp with hp | ⟨hp, -⟩
          · obtain ⟨p₀, hp₀, hid₀, hu₀⟩ := h.priorities p hp
            exact ⟨p₀, hp₀, hid₀.trans hid.symm, hu₀.trans huser.symm⟩
          · exact ⟨p, hp, hid.symm, huser.symm⟩
    · exact h.priorities q hq
  donations d hd := by
    rcases Table.mem_overlay.mp hd with hd | ⟨hd, -⟩
    · have hwrite := hnext.wrote.donations d hd
      generalize hs : (Sum.inr txn : Source) = source at hwrite
      cases hwrite with
      | inserted => cases hs
      | parsed hd₀ hid hu =>
          obtain ⟨d₁, hd₁, hid₁, hu₁⟩ := h.donation hd₀
          exact ⟨d₁, hd₁, hid₁.trans hid.symm, hu₁.trans hu.symm⟩
    · exact h.donations d hd
  progress := by
    have hprogress := h.progress
    cases hnext with
    | setQueueCurrency hf hr => exact currency_progress hhistories h hf hr
    | @complete completion stage f _ _ r hf hr =>
        cases stage with
        | guard =>
            cases hf
            rw [(Completion.guard_ok hr).1]
            split <;> trivial
        | convert =>
            cases hf
            obtain ⟨d, hd, hid, user, huser, hu, amount, hconvert, heffect,
              hstage⟩ := Completion.convert_ok hr
            obtain ⟨d₀, hd₀, hid₀, hu₀⟩ := h.donation hd
            have huser₀ : user ∈ db.users := by
              rcases Table.mem_overlay.mp huser with hw | ⟨hdbu, -⟩
              · obtain ⟨_, _, hs, -⟩ := h.users user hw
                cases hs
              · exact hdbu
            rw [hstage]
            refine ⟨d₀, hd₀, hid₀.trans hid, ⟨?_, ?_, rfl⟩, ?_⟩
            · exact ⟨user, huser₀, hu.trans hu₀.symm⟩
            · refine List.mem_append_right _ ?_
              rw [heffect, hu₀, ← hu]
              exact List.mem_singleton.mpr rfl
            · rw [hu₀, ← hu, ← hhistories.users user huser₀]
              exact hconvert
        | insert amount videos =>
            obtain ⟨d, hd, hid, hlocked, hconvert⟩ := hprogress
            cases videos with
            | nil =>
                cases hf
                rw [(Completion.parsed_ok hr).1]
                trivial
            | cons video videos =>
                cases hf
                rw [(Completion.insert_ok hr).1]
                exact ⟨d, hd, hid, ⟨hlocked.user,
                  List.mem_append_left _ hlocked.lock, rfl⟩, hconvert⟩
        | parsed =>
            cases hf
            rw [(Completion.parsed_ok hr).1]
            trivial
        | commit => cases hf
    | @completeMetadata completion stage f _ _ r hf hr =>
        cases stage with
        | job =>
            cases hf
            rcases MetadataCompletion.updateJob_ok hr with
              ⟨rfl, -⟩ | ⟨j, -, -, j', -, rfl⟩
            · trivial
            · show w.videos.overlay .empty = .empty
              rw [Table.overlay_empty]
              exact hprogress
        | video =>
            cases hf
            rw [(MetadataCompletion.updateVideo_ok hr).1]
            trivial
        | commit => cases hf

end Statement

-- ================================= every run

/-- The histories, and what open transactions know. -/
def histories : Sessions.Facts Db UserLock Call Txn where
  good log db := Histories log db
  held log db s := Held log db s.txn s.written s.locks

/-- A transaction that begins holds nothing it must justify. -/
theorem held_fresh {log : List Commit} {db : Db} {txn : Txn}
    (h : txn.fresh = true) : Held log db txn .empty [] where
  videos _ hv := absurd hv Table.not_mem_empty
  users _ hu := absurd hu Table.not_mem_empty
  priorities _ hp := absurd hp Table.not_mem_empty
  donations _ hd := absurd hd Table.not_mem_empty
  progress := by
    cases txn with
    | setQueueCurrency change stage =>
        have hstage : stage = .lock := of_decide_eq_true h
        rw [hstage]
        exact CurrencyProgress.lock rfl
    | complete completion stage =>
        have hstage : stage = .guard := of_decide_eq_true h
        rw [hstage]
        trivial
    | completeMetadata completion stage =>
        have hstage : stage = .job := of_decide_eq_true h
        rw [hstage]
        rfl

theorem histories_given : Sessions.Given programs soundness histories where
  call h hcall := h.2.lands h.1 (call_lands h.1 hcall _)
  start _ hfresh := held_fresh hfresh
  statement h hs hnext hok := hs.2.next h.1 h.2 (statement_next hnext hok)
  commit h hs hend := h.2.lands h.1 (hs.2.lands hs.1.1.1 hend)
  stable_call h hs hcall hlets :=
    hs.2.stable h.1 (call_lands h.1 hcall _) hlets.1 hlets.2
  stable_commit h hs ht hend hlets :=
    hs.2.stable h.1 (ht.2.lands ht.1.1.1 hend) hlets.1 hlets.2

theorem histories_empty : Histories [] .empty where
  users _ hu := absurd hu Table.not_mem_empty
  strangers _ _ := rfl
  videos _ hv := absurd hv Table.not_mem_empty

theorem reachable_histories {w : World}
    (h : Sessions.Reachable programs .empty w) :
    (soundness.and histories).On w :=
  (soundness_inductive.and histories_given).reachable
    ⟨refers_empty _, histories_empty⟩ h

-- ==================================== commit

/-- What the commit of a currency change does to the store. -/
structure CurrencyChanged (change : CurrencyChange) (before after : Db) :
    Prop where
  currency : ∀ u ∈ after.users, u.userID = change.userID →
    u.queueCurrency = change.queueCurrency
  /-- Every video keeps its priority. -/
  retained : ∀ v' ∈ after.videos, ∃ v ∈ before.videos,
    v.videoID = v'.videoID ∧ v'.videoPriorityID = v.videoPriorityID
  defaults : ∀ p' ∈ after.priorities, ∃ p ∈ before.priorities,
    p.videoPriorityID = p'.videoPriorityID ∧ p.userID = p'.userID
      ∧ p.isDefault = p'.isDefault
  /-- Thresholds keep their order, weakly. -/
  ordered : ∀ p ∈ before.priorities, ∀ q ∈ before.priorities,
    p.userID = q.userID →
    p.minPricePerMinute.1 ≤ q.minPricePerMinute.1 →
    ∀ p' ∈ after.priorities, ∀ q' ∈ after.priorities,
      p'.videoPriorityID = p.videoPriorityID →
      q'.videoPriorityID = q.videoPriorityID →
        p'.minPricePerMinute.1 ≤ q'.minPricePerMinute.1

/-- A version of a threshold after a commit: converted where it is one of
the user, else the same. -/
theorem Repriced.version {db w : Db} {previous : QueueCurrency}
    (h : Repriced db change previous w.priorities)
    {p p' : VideoPriority} (hp : p ∈ db.priorities)
    (hp' : p' ∈ (db.overlay w).priorities)
    (hid : p'.videoPriorityID = p.videoPriorityID) :
    p.userID = change.userID
        ∧ convertThreshold (change.factor previous) p = .ok p'
      ∨ p.userID ≠ change.userID ∧ p' = p := by
  rcases Table.mem_overlay.mp hp' with hw | ⟨hdb, hnot⟩
  · obtain ⟨p₀, hp₀, hu, hconvert⟩ := h.rows p' hw
    have heq : p₀ = p := Table.eq_of_key hp₀ hp
      ((convertThreshold_ok hconvert).1.symm.trans hid)
    rw [heq] at hu hconvert
    exact Or.inl ⟨hu, hconvert⟩
  · have heq : p' = p := Table.eq_of_key hdb hp hid
    refine Or.inr ⟨fun hu => ?_, heq⟩
    obtain ⟨q, hq, hconvert⟩ := h.all p hp hu
    exact hnot q hq ((convertThreshold_ok hconvert).1.trans hid.symm)

/-- A change of currency that commits has changed everything it should. -/
theorem currencyChanged {log : List Commit} {db : Db}
    {w : Db} {locks : List UserLock}
    (hdb : db.Good) (hhistories : Histories log db) (hsound : Sound db w)
    (h : Held log db (.setQueueCurrency change .commit) w locks) :
    CurrencyChanged change db (db.overlay w) where
  currency u hu hid := by
    have hafter := hhistories.lands hdb (h.lands hsound rfl)
    rw [hafter.users u hu, hid]
    exact currencyOf_snoc_some (changeOf_self change .commit)
  retained v' hv' := by
    rcases Table.mem_overlay.mp hv' with hw | ⟨hv, -⟩
    · have hrow := h.videos v' hw
      cases hrow with
      | fresh _ _ _ _ _ _ _ hamount =>
          have hnone := hamount.changeOf change.userID
          rw [changeOf_self] at hnone
          cases hnone
      | same _ _ _ hchange _ =>
          have hnone := hchange change.userID
          rw [changeOf_self] at hnone
          cases hnone
      | edited _ _ _ _ _ h => cases h
      | converted old hold hsource _ _ _ _ _ _ _ _ _ _ _ hpriority =>
          exact ⟨old, hold, (source_videoID hsource).symm, hpriority⟩
    · exact ⟨v', hv, rfl, rfl⟩
  defaults p' hp' := by
    obtain ⟨p, hp, hid, hu⟩ : ∃ p ∈ db.priorities,
        p.videoPriorityID = p'.videoPriorityID ∧ p.userID = p'.userID := by
      rcases Table.mem_overlay.mp hp' with hw | ⟨hdb, -⟩
      · exact h.priorities p' hw
      · exact ⟨p', hdb, rfl, rfl⟩
    obtain ⟨p'', hp'', hid'', hu'', hd''⟩ := hsound.keeps.priorities p hp
    have heq : p'' = p' := Table.eq_of_key hp'' hp' (hid''.trans hid)
    exact ⟨p, hp, hid, hu, by rw [← heq, hd'']⟩
  ordered p hp q hq huser hle p' hp' q' hq' hpid hqid := by
    have hprogress := h.progress
    cases hprogress with
    | unchanged _ _ hw =>
        rw [hw, overlay_empty] at hp' hq'
        rw [Table.eq_of_key hp' hp hpid, Table.eq_of_key hq' hq hqid]
        exact hle
    | changed _ _ hprices _ _ =>
        rcases hprices.version hp hp' hpid with ⟨hpu, hpc⟩ | ⟨hpu, rfl⟩
        · rcases hprices.version hq hq' hqid with ⟨-, hqc⟩ | ⟨hqu, -⟩
          · exact convertThreshold_mono hle hpc hqc
          · exact absurd (huser.symm.trans hpu) hqu
        · rcases hprices.version hq hq' hqid with ⟨hqu, -⟩ | ⟨-, rfl⟩
          · exact absurd (huser.trans hqu) hpu
          · exact hle
    | repriced _ _ _ _ hstage =>
        rcases hstage with hstage | hstage <;> cases hstage

/-- In every reachable world every amount is what its currency history
makes of it, and an open currency change touches nothing before its
commit, which converts all or, when a statement fails, never comes. -/
theorem currency_applied_once (actions : List Action) :
    Histories (World.after actions).log (World.after actions).db
      ∧ (∀ v ∈ (World.after actions).db.videos,
        ∃ user ∈ (World.after actions).db.users,
          Owns (World.after actions).db user.userID v.toVideoValues)
      ∧ (∀ p ∈ (World.after actions).db.priorities,
        (p.isDefault = true → p.minPricePerMinute.1 = 0)
          ∧ (p.isDefault ≠ true → 0 < p.minPricePerMinute.1))
      ∧ ∀ s ∈ (World.after actions).sessions, ∀ change stage,
        s.txn = .setQueueCurrency change stage → ∀ draw,
          (stage = .commit → CurrencyChanged change (World.after actions).db
            (Sessions.step programs (World.after actions)
              (.proceed s.sessionID draw)).db)
          ∧ (stage ≠ .commit →
            (Sessions.step programs (World.after actions)
              (.proceed s.sessionID draw)).db = (World.after actions).db)
          ∧ ∀ a, (World.after actions).attempt programs
              (.proceed s.sessionID draw) = some a →
            (∃ e, a.result = .error e) →
              Sessions.step programs (World.after actions)
                  (.proceed s.sessionID draw)
                = (World.after actions).drop s.sessionID := by
  have hw := reachable_after actions
  obtain ⟨⟨hgood, hhistories⟩, hheld⟩ := reachable_histories hw
  refine ⟨hhistories, fun v hv => (hgood.video v hv).owner,
    fun p _ => ⟨p.check.mp, fun hd => ?_⟩, ?_⟩
  · exact Nat.pos_of_ne_zero fun hz => hd (p.check.mpr hz)
  intro s hs change stage htxn draw
  obtain ⟨hsound, hsession⟩ := hheld s hs
  refine ⟨fun hstage => ?_, fun hstage => ?_, fun a hattempt herror => ?_⟩
  · rw [hstage] at htxn
    have hend : programs.statement s.txn = none := by rw [htxn]; rfl
    rw [Sessions.step_commit hs hend draw]
    change Held _ _ s.txn _ _ at hsession
    rw [htxn] at hsession
    exact currencyChanged hgood hhistories hsound.1.1 hsession
  · obtain ⟨statement, hnext⟩ :
        ∃ statement, programs.statement s.txn = some statement := by
      rw [htxn]
      cases stage with
      | commit => exact absurd rfl hstage
      | lock | thresholds | retain | amounts | currency => exact ⟨_, rfl⟩
    exact (Sessions.step_statement hs hnext draw).1
  · obtain ⟨e, he⟩ := herror
    cases hnext : programs.statement s.txn with
    | none =>
        rw [Sessions.attempt_commit hs hnext draw] at hattempt
        cases hattempt
    | some statement =>
        rw [Sessions.attempt_proceed hs hnext draw] at hattempt
        cases hattempt
        exact Sessions.step_failed hs hnext (map_eq_error he)

end StreamBrew.Videos
