/-
The checkpoint of a Streamlabs connection vouches for the history below
it.

The checkpoints of connection rows, listeners and jobs are sound at all
times, and so are those that passes began with (`Inv`). A save stores
what a pass has read in the step that moves the checkpoint
(`delivers_rows`); every other step leaves the checkpoints alone
(`rows_of_not_saves`).
-/
import StreamBrew.Streamlabs.Proofs.Reading

namespace StreamBrew.Streamlabs

open Relational Backlog
open Donations (Connection ConnectionRow ProviderConnection DonationDraw
  Stored Ingested Holds Listener HistoryJob)
open Alert (UserID Time)

variable {history : History} {a : Donations.Action} {r' : ConnectionRow}

variable {Json : Type} {codec : RowCodec Json}
  {s s' : System Json} {userID : UserID} {account : String}

-- ===================================== saves

/-- The last step of a pass, as the application makes it. -/
def Delivers (app : Donations.State) (history : History) :
    Owner → Donations.Action → Prop
  | .connect userID connection, a =>
      ∃ time draws, a = .store (.saveConnectionWithDonations .streamlabs
        userID connection (streamlabsBatch history) time draws)
  | .listener listenerID connection, a =>
      ∃ time draws l, a = .emit listenerID (streamlabsBatch history) time
          draws
        ∧ app.listeners.get? listenerID = some l
        ∧ l.provider = .streamlabs ∧ l.connection = connection
  | .job jobID connection, a =>
      ∃ time draws job, a = .syncHistory jobID
          (.ok (streamlabsBatch history)) time draws
        ∧ app.jobs.get? jobID = some job
        ∧ job.provider = .streamlabs ∧ job.connection = connection

/-- What a pass saves: nothing, or what its reading came to. -/
theorem System.save_eq (passID : Nat) (time : Time)
    (draws : List DonationDraw) (s : System Json) :
    s.save passID time draws = s
      ∨ ∃ pass history, s.passes passID = some pass
        ∧ pass.progress = .done history
        ∧ (s.save passID time draws = s.set passID none
          ∨ ∃ a, Delivers s.app history pass.owner a
            ∧ s.save passID time draws
              = { s.set passID none with app := Donations.step s.app a }) := by
  unfold System.save
  split
  case h_2 => exact Or.inl rfl
  case h_1 owner history hpass =>
    refine Or.inr ⟨_, history, hpass, rfl, ?_⟩
    cases owner with
    | connect userID connection =>
        exact Or.inr ⟨_, ⟨time, draws, rfl⟩, rfl⟩
    | listener listenerID connection =>
        simp only
        split
        case isFalse => exact Or.inl rfl
        case isTrue hl =>
          obtain ⟨l, hget, he⟩ := Option.map_eq_some_iff.mp hl
          obtain ⟨hprovider, hconnection⟩ := Prod.mk.inj he
          exact Or.inr ⟨_, ⟨time, draws, l, rfl, hget, hprovider,
            hconnection⟩, rfl⟩
    | job jobID connection =>
        simp only
        split
        case isFalse => exact Or.inl rfl
        case isTrue hj =>
          obtain ⟨job, hget, he⟩ := Option.map_eq_some_iff.mp hj
          obtain ⟨hprovider, hconnection⟩ := Prod.mk.inj he
          exact Or.inr ⟨_, ⟨time, draws, job, rfl, hget, hprovider,
            hconnection⟩, rfl⟩

/-- The batch of a history is stored for a user. -/
def Holding (history : History) (userID : UserID) (alert : Alert.Db) :
    Prop :=
  Holds (streamlabsBatch history) .streamlabs userID alert

theorem Holding.stored {alert : Alert.Db} (h : Holding history userID alert) :
    ∀ d ∈ history.donations,
      Stored userID .streamlabs d.sourceDonationID alert :=
  fun _ hd => h _ (List.mem_map_of_mem hd)

/-- The batch of a job or a listener, in the row of its connection. -/
theorem saveDonations_marks {app : Donations.State}
    {connection : Connection} {origin : Donations.IngestionOrigin}
    {time : Time} {draws : List DonationDraw}
    (hr' : r' ∈ (Donations.saveDonations .streamlabs connection.version
      (streamlabsBatch history) origin time draws app.db).2.connections) :
    (∃ r ∈ app.db.connections, r.mark = r'.mark)
      ∨ (Holding history connection.userID
          (Donations.saveDonations .streamlabs connection.version
            (streamlabsBatch history) origin time draws app.db).2.alert
        ∧ r'.toConnection.mark = (connection.userID,
          connection.sourceUserID, history.checkpoint)) := by
  rcases Donations.saveDonations_rows hr' with
    hr' | ⟨-, hholds, r, hr, hu, rfl⟩
  · exact Or.inl ⟨r', hr', rfl⟩
  · have hversion := hu.1.2
    have huser : r.userID = connection.userID :=
      congrArg Donations.ConnectionVersion.userID hversion
    have haccount : r.sourceUserID = connection.sourceUserID :=
      congrArg Donations.ConnectionVersion.sourceUserID hversion
    cases hc : history.checkpoint with
    | none =>
        left
        refine ⟨r, hr, ?_⟩
        have hb : (streamlabsBatch history).checkpoint = none := hc
        unfold ConnectionRow.mark
        simp only [hb]
        rfl
    | some checkpoint =>
        right
        refine ⟨hholds, ?_⟩
        have hb : (streamlabsBatch history).checkpoint = some checkpoint :=
          hc
        unfold Connection.mark
        simp only [hb, huser, haccount]
        rfl

/-- A row after the save of a pass has the mark of one before, or is the
row of the owner with the checkpoint of the reading, and what was read is
stored. -/
theorem delivers_rows {app : Donations.State} {owner : Owner}
    (h : Delivers app history owner a)
    (hr' : r' ∈ (Donations.step app a).db.connections) :
    (∃ r ∈ app.db.connections, r.mark = r'.mark)
      ∨ (Holding history owner.userID (Donations.step app a).db.alert
        ∧ r'.toConnection.mark
          = (owner.userID, owner.account, history.checkpoint)) := by
  rcases Donations.step_marks hr' with hold | ⟨call, hcall, -, hdb⟩
  · exact Or.inl hold
  · cases owner with
    | connect userID connection =>
        obtain ⟨time, draws, rfl⟩ := h
        cases hcall
        rcases Donations.saveConnectionWithDonations_rows hr' with
          hr' | ⟨-, hholds, hmark⟩
        · exact Or.inl ⟨r', hr', rfl⟩
        · refine Or.inr ⟨hholds, ?_⟩
          have hkey : r'.key = (.streamlabs, userID) :=
            congrArg Prod.fst hmark
          have hrest : (r'.sourceUserID, r'.historyCheckpoint)
              = (connection.sourceUserID, history.checkpoint) :=
            congrArg Prod.snd hmark
          exact Prod.ext (congrArg Prod.snd hkey) hrest
    | listener listenerID connection =>
        obtain ⟨time, draws, l, rfl, hl, hprovider, rfl⟩ := h
        obtain ⟨l', hl', rfl⟩ := hcall
        cases hl.symm.trans hl'
        rw [hdb] at hr' ⊢
        rw [hprovider] at hr' ⊢
        exact saveDonations_marks hr'
    | job jobID connection =>
        obtain ⟨time, draws, job, rfl, hj, hprovider, rfl⟩ := h
        obtain ⟨job', hj', rfl⟩ := hcall
        cases hj.symm.trans hj'
        rw [hdb] at hr' ⊢
        rw [hprovider] at hr' ⊢
        exact saveDonations_marks hr'

/-- A step that is no save of Streamlabs donations moves no checkpoint of
a Streamlabs connection. -/
theorem rows_of_not_saves {app : Donations.State} (h : saves app a = false)
    (hr' : r' ∈ (Donations.step app a).db.connections)
    (hprovider : r'.provider = .streamlabs) :
    ∃ r ∈ app.db.connections, r.mark = r'.mark := by
  rcases Donations.step_marks hr' with hold | ⟨call, hcall, hsaves, -⟩
  · exact hold
  · exfalso
    rw [hprovider] at hsaves
    cases a with
    | emit listenerID batch time draws =>
        obtain ⟨l, hl, rfl⟩ := hcall
        have hp : l.provider = .streamlabs := hsaves
        simp [saves, hl, hp] at h
    | syncHistory jobID fetched time draws =>
        cases fetched with
        | error => exact hcall
        | ok batch =>
            obtain ⟨job, hj, rfl⟩ := hcall
            have hp : job.provider = .streamlabs := hsaves
            simp [saves, hj, hp] at h
    | store performed =>
        cases hcall
        cases call with
        | saveConnectionWithDonations p =>
            have hp : p = .streamlabs := hsaves
            simp [saves, hp] at h
        | saveDonations p =>
            have hp : p = .streamlabs := hsaves
            simp [saves, hp] at h
        | _ => exact hsaves
    | _ => exact hcall

-- ===================================== steps

/-- What was read is stored, so its checkpoint is sound. -/
theorem Finishes.sound {checkpoint : String}
    (hf : Finishes codec s userID account history checkpoint)
    (hg : Grows codec s s')
    (hholds : Holding history userID s'.app.db.alert) :
    Sound codec s' userID account checkpoint :=
  ⟨hf.named, hg.known hf.known, hg.covers hf.named hf.known hf.covers
    fun body hb => hb.elim (hg.rowStored body)
      fun hd d hok => hholds.stored d (hd d hok)⟩

/-- A step beside the application: the provider's, or that of a pass. -/
theorem Inv.beside (hi : Inv codec s) (hg : Grows codec s s')
    (happ : s'.app = s.app)
    (hpasses : ∀ passID pass, s'.passes passID = some pass →
      s.passes passID = some pass ∨ PassInv codec s pass) :
    Inv codec s' := by
  constructor
  case ingested => exact happ ▸ hi.ingested
  case distinct => exact fun account => hg.distinct (hi.distinct account)
  case rows =>
    intro r hr hp
    rw [happ] at hr
    exact (hi.rows r hr hp).grow hg
  case listeners =>
    intro l hl hp
    rw [happ] at hl
    exact (hi.listeners l hl hp).grow hg
  case jobs =>
    intro job hjob hp
    rw [happ] at hjob
    exact (hi.jobs job hjob hp).grow hg
  case passes =>
    intro passID pass hpass
    rcases hpasses passID pass hpass with hold | hnew
    · exact (hi.passes passID pass hold).grow hg
    · exact hnew.grow hg

theorem Inv.set (hi : Inv codec s) (passID : Nat) {pass : Option Pass}
    (hp : ∀ p ∈ pass, PassInv codec s p) :
    Inv codec (s.set passID pass) := by
  refine hi.beside ⟨fun _ => Or.inl rfl, fun _ _ h => h⟩ rfl ?_
  intro id p hpass
  change Function.update s.passes passID pass id = some p at hpass
  by_cases he : id = passID
  · subst he
    rw [Function.update_self] at hpass
    exact Or.inr (hp p hpass)
  · rw [Function.update_of_ne he] at hpass
    exact Or.inl hpass

/-- A pass that begins has nothing to show but its checkpoint. -/
theorem PassInv.start {owner : Owner} (hv : Vouched codec s owner.mark) :
    PassInv codec s (.start owner) := by
  refine ⟨hv, fun r hr => ?_, fun history hh => nomatch hh⟩
  cases hr
  refine ⟨rfl, [], s.history owner.account, .nil _,
    (fun _ => ⟨rfl, rfl⟩), (fun x hx => nomatch hx),
    (fun x hx => nomatch hx), ?_⟩
  exact fun body hbody => absurd hbody List.not_mem_nil

/-- A donation made on the platform keeps the invariant. -/
theorem Inv.publish (hi : Inv codec s) (account : String) (body : Json) :
    Inv codec (s.publish codec account body) := by
  unfold System.publish
  split
  case isTrue => exact hi
  case isFalse hnew =>
    refine hi.beside ⟨fun other => ?_, fun _ _ h => h⟩ rfl
      fun _ _ h => Or.inl h
    show Function.update s.history account (body :: s.history account) other
        = _ ∨ ∃ body', Function.update s.history account
          (body :: s.history account) other = _ ∧ _
    by_cases he : other = account
    · subst he
      rw [Function.update_self]
      exact Or.inr ⟨body, rfl, fun hn row hrow hid =>
        hnew ⟨hn, row, hrow, hid⟩⟩
    · rw [Function.update_of_ne he]
      exact Or.inl rfl

/-- A page that is read keeps the invariant. -/
theorem Inv.page (hi : Inv codec s) (passID size : Nat) :
    Inv codec (s.page codec passID size) := by
  unfold System.page
  split
  case h_2 => exact hi
  case h_1 owner r hpass =>
    have hp := hi.passes passID _ hpass
    obtain ⟨hcheckpoint, hreads⟩ := hp.reads r rfl
    have hdistinct := hi.distinct owner.account
    obtain ⟨read, rest, hhas, hanswer⟩ := hreads.answer hdistinct size
    refine hi.set passID fun pass hpass' => ?_
    cases hpass'
    refine ⟨hp.vouched, fun next hnext => ?_, fun history hdone c hc => ?_⟩
    · change r.page _ = .next next at hnext
      rw [hanswer] at hnext
      obtain ⟨hsame, hreads'⟩ := Reads.next hhas hnext
      exact ⟨hsame.trans hcheckpoint, hreads'⟩
    · change r.page _ = .done history at hdone
      rw [hanswer] at hdone
      refine Reads.done hdistinct hhas ?_ ?_ hdone hc
      · unfold historyPageSize
        omega
      · rw [hcheckpoint]
        exact hp.vouched

/-- A step of the application, where the checkpoints that it moves are
sound after it. -/
theorem Inv.application (hi : Inv codec s)
    (happ : s'.app = Donations.step s.app a)
    (hhistory : s'.history = s.history)
    (hpasses : ∀ passID pass, s'.passes passID = some pass →
      s.passes passID = some pass)
    (hrows : ∀ r' ∈ (Donations.step s.app a).db.connections,
      r'.provider = .streamlabs →
        (∃ r ∈ s.app.db.connections, r.mark = r'.mark)
          ∨ Vouched codec s' r'.toConnection.mark)
    (hlisteners : ∀ listenerID batch time draws l,
      a = .emit listenerID batch time draws →
      s.app.listeners.get? listenerID = some l →
      l.provider = .streamlabs →
      Holds batch l.provider.source l.connection.userID
        (Donations.step s.app a).db.alert →
      Vouched codec s' (l.connection.userID, l.connection.sourceUserID,
        batch.checkpoint)) :
    Inv codec s' := by
  obtain ⟨hingested, hstored⟩ := hi.ingested.step a
  have hg : Grows codec s s' :=
    ⟨fun account => Or.inl (congrFun hhistory account),
      fun user id h => happ ▸ hstored user .streamlabs id h⟩
  have hread : ∀ r ∈ s.app.db.connections, r.provider = .streamlabs →
      Vouched codec s' r.toConnection.mark :=
    fun r hr hp => (hi.rows r hr hp).grow hg
  constructor
  case ingested => exact happ ▸ hingested
  case distinct => exact fun account => hg.distinct (hi.distinct account)
  case rows =>
    intro r' hr' hp
    rw [happ] at hr'
    rcases hrows r' hr' hp with ⟨r, hr, hm⟩ | hnew
    · have hkey : r.key = r'.key := congrArg Prod.fst hm
      have hprovider : r.provider = r'.provider := congrArg Prod.fst hkey
      have hrest : (r.sourceUserID, r.historyCheckpoint)
          = (r'.sourceUserID, r'.historyCheckpoint) := congrArg Prod.snd hm
      have hmark : r.toConnection.mark = r'.toConnection.mark :=
        Prod.ext (congrArg Prod.snd hkey) hrest
      exact hmark ▸ hread r hr (hprovider.trans hp)
    · exact hnew
  case listeners =>
    intro l' hl' hp
    rw [happ] at hl'
    rcases Donations.step_listener_marks hl' with
      ⟨l, hl, hprovider, hm⟩ | ⟨r, hr, hprovider, hc⟩
        | ⟨listenerID, batch, time, draws, l, ha, hl, hprovider, hholds,
          hm⟩
    · exact hm ▸ (hi.listeners l hl (hprovider.trans hp)).grow hg
    · exact hc ▸ hread r hr (hprovider.trans hp)
    · rw [hm]
      exact hlisteners listenerID batch time draws l ha hl
        (hprovider.trans hp) hholds
  case jobs =>
    intro job hjob hp
    rw [happ] at hjob
    rcases Donations.step_job_marks hjob with
      hjob | ⟨r, hr, hprovider, hc⟩
    · exact (hi.jobs job hjob hp).grow hg
    · exact hc ▸ hread r hr (hprovider.trans hp)
  case passes =>
    exact fun passID pass hpass =>
      (hi.passes passID pass (hpasses passID pass hpass)).grow hg

/-- The checkpoint that a save moves is that of what it stores. -/
theorem Inv.deliver (hi : Inv codec s) {pass : Pass}
    {passID : Nat} (hpass : s.passes passID = some pass)
    (hdone : pass.progress = .done history)
    (ha : Delivers s.app history pass.owner a) :
    Inv codec { s.set passID none with app := Donations.step s.app a } := by
  have hg : Grows codec s
      { s.set passID none with app := Donations.step s.app a } :=
    ⟨fun account => Or.inl rfl,
      fun user id h => (hi.ingested.step a).2 user .streamlabs id h⟩
  have hvouched : Holding history pass.owner.userID
      (Donations.step s.app a).db.alert →
      Vouched codec { s.set passID none with app := Donations.step s.app a }
        (pass.owner.userID, pass.owner.account, history.checkpoint) :=
    fun hholds checkpoint hc =>
      ((hi.passes passID pass hpass).finishes history hdone checkpoint
        hc).sound hg hholds
  refine hi.application rfl rfl (fun id other h => ?_)
    (fun r' hr' hp => ?_) fun listenerID batch time draws l he hl _ hh => ?_
  · change Function.update s.passes passID none id = some other at h
    by_cases hid : id = passID
    · subst hid
      rw [Function.update_self] at h
      cases h
    · rw [Function.update_of_ne hid] at h
      exact h
  · refine (delivers_rows ha hr').imp_right ?_
    rintro ⟨hholds, hm⟩
    exact hm ▸ hvouched hholds
  · cases howner : pass.owner with
    | connect userID connection =>
        rw [howner] at ha
        obtain ⟨_, _, he'⟩ := ha
        cases he.symm.trans he'
    | job jobID connection =>
        rw [howner] at ha
        obtain ⟨_, _, _, he', -⟩ := ha
        cases he.symm.trans he'
    | listener id connection =>
        rw [howner] at ha hvouched
        obtain ⟨_, _, l', he', hl', hprovider, hconnection⟩ := ha
        cases he.symm.trans he'
        cases hl.symm.trans hl'
        subst hconnection
        rw [hprovider] at hh
        exact hvouched hh

theorem Inv.save (hi : Inv codec s) (passID : Nat) (time : Time)
    (draws : List DonationDraw) : Inv codec (s.save passID time draws) := by
  rcases System.save_eq passID time draws s with
    he | ⟨pass, history, hpass, hdone, he | ⟨a, ha, he⟩⟩
  · rw [he]
    exact hi
  · rw [he]
    exact hi.set passID fun p hp => nomatch hp
  · rw [he]
    exact hi.deliver hpass hdone ha

theorem Inv.task (hi : Inv codec s) (ha : saves s.app a = false) :
    Inv codec { s with app := Donations.step s.app a } := by
  refine hi.application rfl rfl (fun _ _ h => h)
    (fun r' hr' hp => Or.inl (rows_of_not_saves ha hr' hp)) ?_
  intro listenerID batch time draws l he hl hp _
  subst he
  simp [saves, hl, hp] at ha

/-- Every step keeps the invariant. -/
theorem Inv.step (hi : Inv codec s) (a : Action Json) :
    Inv codec (s.step codec a) := by
  cases a with
  | publish account body => exact hi.publish account body
  | connect passID userID connection =>
      refine hi.set passID fun p hp => ?_
      cases hp
      exact .start fun checkpoint hc => by cases hc
  | reconcile passID listenerID =>
      simp only [System.step]
      cases hl : s.app.listeners.get? listenerID with
      | none => exact hi
      | some l =>
          simp only
          split
          case isFalse => exact hi
          case isTrue hp =>
            refine hi.set passID fun p hpass => ?_
            cases hpass
            exact .start (hi.listeners l (Table.mem_of_get? hl) hp)
  | recover passID jobID =>
      simp only [System.step]
      cases hj : s.app.jobs.get? jobID with
      | none => exact hi
      | some job =>
          simp only
          split
          case isFalse => exact hi
          case isTrue hp =>
            refine hi.set passID fun p hpass => ?_
            cases hpass
            exact .start (hi.jobs job (Table.mem_of_get? hj) hp)
  | page passID size => exact hi.page passID size
  | abandon passID => exact hi.set passID fun p hp => by cases hp
  | save passID time draws => exact hi.save passID time draws
  | task a =>
      simp only [System.step]
      split
      case isTrue => exact hi
      case isFalse ha => exact hi.task (Bool.eq_false_iff.mpr ha)

theorem inv_init : Inv codec (System.init Json) := by
  constructor
  case ingested => exact Donations.ingested_run []
  case distinct => exact fun account => List.Pairwise.nil
  case rows => exact fun r hr => absurd hr Table.not_mem_empty
  case listeners => exact fun l hl => absurd hl Table.not_mem_empty
  case jobs => exact fun job hjob => absurd hjob Table.not_mem_empty
  case passes => exact fun passID pass hpass => nomatch hpass

theorem inv_run (acts : List (Action Json)) :
    Inv codec (Run.run (System.step codec) (.init Json) acts) :=
  Run.run_preserves inv_init (fun _ a hi => hi.step a) acts

-- ================================= the claim

/-- A step moves the checkpoint of a Streamlabs row only when it is the
save of a pass that has come to its end: what the pass read is stored in
this step, and justifies the checkpoint. -/
theorem step_moves (hi : Inv codec s) (a : Action Json)
    (hr' : r' ∈ (s.step codec a).app.db.connections)
    (hprovider : r'.provider = .streamlabs) :
    (∃ r ∈ s.app.db.connections, r.mark = r'.mark)
      ∨ ∃ passID time draws pass history, a = .save passID time draws
        ∧ s.passes passID = some pass ∧ pass.progress = .done history
        ∧ r'.toConnection.mark
          = (pass.owner.userID, pass.owner.account, history.checkpoint)
        ∧ (∀ d ∈ history.donations,
          Stored pass.owner.userID .streamlabs d.sourceDonationID
            (s.step codec a).app.db.alert)
        ∧ ∀ checkpoint ∈ history.checkpoint, Finishes codec s
          pass.owner.userID pass.owner.account history checkpoint := by
  have hsame : (s.step codec a).app = s.app →
      ∃ r ∈ s.app.db.connections, r.mark = r'.mark :=
    fun happ => ⟨r', happ ▸ hr', rfl⟩
  cases a with
  | publish account body =>
      refine Or.inl (hsame ?_)
      simp only [System.step, System.publish]
      split <;> rfl
  | connect | abandon => exact Or.inl (hsame rfl)
  | reconcile passID listenerID =>
      refine Or.inl (hsame ?_)
      simp only [System.step]
      split
      case h_1 => rfl
      case h_2 => split <;> rfl
  | recover passID jobID =>
      refine Or.inl (hsame ?_)
      simp only [System.step]
      split
      case h_1 => rfl
      case h_2 => split <;> rfl
  | page passID size =>
      refine Or.inl (hsame ?_)
      simp only [System.step, System.page]
      split <;> rfl
  | task a =>
      simp only [System.step] at hr' hsame
      cases ha : saves s.app a with
      | true =>
          simp only [ha, if_true] at hsame
          exact Or.inl (hsame trivial)
      | false =>
          simp only [ha, Bool.false_eq_true, if_false] at hr'
          exact Or.inl (rows_of_not_saves ha hr' hprovider)
  | save passID time draws =>
      have hstep : s.step codec (.save passID time draws)
          = s.save passID time draws := rfl
      rw [hstep] at hr' hsame ⊢
      rcases System.save_eq passID time draws s with
        he | ⟨pass, history, hpass, hdone, he | ⟨a, ha, he⟩⟩
      · exact Or.inl (hsame (by rw [he]))
      · exact Or.inl (hsame (by rw [he]; rfl))
      · rw [he] at hr' ⊢
        refine (delivers_rows ha hr').imp_right ?_
        rintro ⟨hholds, hmark⟩
        exact ⟨passID, time, draws, pass, history, rfl, hpass, hdone,
          hmark, hholds.stored,
          (hi.passes passID pass hpass).finishes history hdone⟩

/-- In every reachable state the checkpoint of every Streamlabs
connection is sound: it is the id of a row of the account, and every
valid row at or below it, back to the first, is stored for the user. And
a step moves a checkpoint only as the save of a pass whose donations it
stores, and these with what was stored justify it. -/
theorem checkpoint_sound (codec : RowCodec Json)
    (acts : List (Action Json)) :
    (∀ r ∈ (Run.run (System.step codec) (.init Json)
        acts).app.db.connections, r.provider = .streamlabs →
      ∀ checkpoint ∈ r.historyCheckpoint,
        Sound codec (Run.run (System.step codec) (.init Json) acts)
          r.userID r.sourceUserID checkpoint)
    ∧ ∀ before a after, acts = before ++ a :: after →
      let s := Run.run (System.step codec) (.init Json) before
      ∀ r' ∈ (s.step codec a).app.db.connections,
        r'.provider = .streamlabs →
        (∃ r ∈ s.app.db.connections, r.mark = r'.mark)
          ∨ ∃ passID time draws pass history, a = .save passID time draws
            ∧ s.passes passID = some pass
            ∧ pass.progress = .done history
            ∧ r'.toConnection.mark = (pass.owner.userID,
              pass.owner.account, history.checkpoint)
            ∧ (∀ d ∈ history.donations,
              Stored pass.owner.userID .streamlabs d.sourceDonationID
                (s.step codec a).app.db.alert)
            ∧ ∀ checkpoint ∈ history.checkpoint, Finishes codec s
              pass.owner.userID pass.owner.account history checkpoint := by
  constructor
  · intro r hr hp checkpoint hc
    exact (inv_run acts).rows r hr hp checkpoint hc
  · intro before a after _ s r' hr' hp
    exact step_moves (inv_run before) a hr' hp

/-- Rows as their id and their other fields. -/
def plainCodec : RowCodec (String × Option RawDonation) where
  identity := fun body => some body.1
  fields := fun body => body.2

/-- An import during which a donation arrives; the newest row that it
reads is malformed. -/
def importingRun : List (Action (String × Option RawDonation)) :=
  [.publish "s" ("20", some
      { createdAt := "1438576556", currency := "USD", amount := "2" }),
    .publish "s" ("30", none),
    .connect 0 1
      { accessToken := "a", refreshToken := "r", sourceUserID := "s" },
    .page 0 1,
    .publish "s" ("40", none),
    .page 0 1,
    .page 0 1,
    .save 0 0 [{ donationID := 1, playback := { playbackID := 1, gap := 0 } }]]

/-- A run that imports a history: the checkpoint it leaves is sound. -/
theorem checkpoint_sound_importingRun :
    ∃ r ∈ (Run.run (System.step plainCodec) (.init _)
        importingRun).app.db.connections,
      r.historyCheckpoint = some "30"
        ∧ Sound plainCodec
          (Run.run (System.step plainCodec) (.init _) importingRun)
          r.userID r.sourceUserID "30" := by
  have hrow : ∃ r ∈ (Run.run (System.step plainCodec) (.init _)
      importingRun).app.db.connections,
      r.provider = .streamlabs ∧ r.historyCheckpoint = some "30" := by
    decide
  obtain ⟨r, hr, hp, hc⟩ := hrow
  exact ⟨r, hr, hc,
    (checkpoint_sound plainCodec importingRun).1 r hr hp "30" hc⟩

end StreamBrew.Streamlabs
