/-
No wake-up of the Streamlabs adapter is lost.

Where a wake-up waits in the channel, or was taken and no reading has
begun since, nothing is promised. A reading that began after the last
notification comes to all rows that were listed then: its first page
makes the newest row its checkpoint, which has them all at or below it
(`Caught`), and what is at or below the checkpoint of a pass is stored
once its batch is. So when the adapter rests with an empty channel, all
that was listed is stored.
-/
import StreamBrew.Streamlabs.Adapter
import StreamBrew.Streamlabs.Proofs.System
import StreamBrew.Lib.Backoff

namespace StreamBrew.Streamlabs.Adapter

open Backlog
open Donations (Stored DonationDraw Holds)
open Alert (Time)

variable {Json : Type} {codec : RowCodec Json} {passID listenerID : Nat}
  {s : State Json} {sys sys' : System Json} {account : String}

-- ==================================== passes

/-- What one step of `System` does to the histories and the store. -/
theorem grows_step (hi : Inv codec sys) (a : Streamlabs.Action Json) :
    Grows codec sys (sys.step codec a) := by
  have hsame : ∀ sys' : System Json, sys'.history = sys.history →
      sys'.app = sys.app → Grows codec sys sys' := by
    intro sys' hhistory happ
    exact ⟨fun account => .inl (congrFun hhistory account),
      fun _ _ h => happ ▸ h⟩
  have happ : ∀ (sys' : System Json) (a : Donations.Action),
      sys'.history = sys.history → sys'.app = Donations.step sys.app a →
        Grows codec sys sys' := by
    intro sys' a hhistory happ
    exact ⟨fun account => .inl (congrFun hhistory account),
      fun user id h => happ ▸ (hi.ingested.step a).2 user .streamlabs id h⟩
  cases a with
  | publish account body =>
      simp only [System.step, System.publish]
      split
      case isTrue => exact Grows.refl sys
      case isFalse hnew =>
        refine ⟨fun other => ?_, fun _ _ h => h⟩
        show Function.update sys.history account
            (body :: sys.history account) other = _
          ∨ ∃ body', Function.update sys.history account
            (body :: sys.history account) other = _ ∧ _
        by_cases he : other = account
        · subst he
          rw [Function.update_self]
          exact .inr ⟨body, rfl, fun hn row hrow hid =>
            hnew ⟨hn, row, hrow, hid⟩⟩
        · rw [Function.update_of_ne he]
          exact .inl rfl
  | connect | abandon => exact hsame _ rfl rfl
  | reconcile =>
      simp only [System.step]
      split
      case h_1 => exact Grows.refl sys
      case h_2 => split <;> exact hsame _ rfl rfl
  | recover =>
      simp only [System.step]
      split
      case h_1 => exact Grows.refl sys
      case h_2 => split <;> exact hsame _ rfl rfl
  | page =>
      simp only [System.step, System.page]
      split <;> exact hsame _ rfl rfl
  | save passID time draws =>
      simp only [System.step]
      rcases System.save_eq passID time draws sys with
        he | ⟨pass, history, -, -, he | ⟨a, -, he⟩⟩
      · rw [he]
        exact Grows.refl sys
      · rw [he]
        exact hsame _ rfl rfl
      · rw [he]
        exact happ _ a rfl rfl
  | task a =>
      simp only [System.step]
      split
      case isTrue => exact Grows.refl sys
      case isFalse => exact happ _ a rfl rfl

/-- What others do leaves the pass alone. -/
theorem passes_of_leaves {a : Streamlabs.Action Json}
    (h : leavesPass passID a = true) :
    (sys.step codec a).passes passID = sys.passes passID := by
  have hset : ∀ (id : Nat) (pass : Option Pass), decide (id ≠ passID) = true →
      (sys.set id pass).passes passID = sys.passes passID := by
    intro id pass hne
    exact Function.update_of_ne (Ne.symm (of_decide_eq_true hne)) _ _
  cases a with
  | publish =>
      simp only [System.step, System.publish]
      split <;> rfl
  | connect id => exact hset id _ h
  | abandon id => exact hset id _ h
  | reconcile id =>
      simp only [System.step]
      split
      case h_1 => rfl
      case h_2 =>
        split
        case isTrue => exact hset id _ h
        case isFalse => rfl
  | recover id =>
      simp only [System.step]
      split
      case h_1 => rfl
      case h_2 =>
        split
        case isTrue => exact hset id _ h
        case isFalse => rfl
  | page id =>
      simp only [System.step, System.page]
      split
      case h_1 => exact hset id _ h
      case h_2 => rfl
  | save id time draws =>
      simp only [System.step]
      rcases System.save_eq id time draws sys with
        he | ⟨pass, history, -, -, he | ⟨a, -, he⟩⟩
      · rw [he]
      · rw [he]
        exact hset id _ h
      · rw [he]
        exact hset id _ h
  | task =>
      simp only [System.step]
      split <;> rfl

/-- All listed rows are in the stretch below the checkpoint of a reading,
once it has one; and once it is done, among its donations or stored. -/
def Caught (codec : RowCodec Json) (alert : Alert.Db)
    (userID : Alert.UserID) (rows listed : List Json) : Progress → Prop
  | .next r => ∀ c ∈ r.newCheckpoint, ∀ body ∈ listed,
      body ∈ atOrBelow (rowID codec) c rows
  | .done history => ∀ body ∈ listed,
      RowStored codec userID alert body
        ∨ ∀ d, (decodeDonation codec body).donation = .ok d →
          d ∈ history.donations
  | .failed _ => True

/-- Rows come in above the checkpoint of a reading. -/
theorem Caught.grow {pass : Pass} {listed : List Json}
    (hg : Grows codec sys sys') (hp : PassInv codec sys pass)
    (h : Caught codec sys.app.db.alert pass.owner.userID
      (sys.history pass.owner.account) listed pass.progress) :
    Caught codec sys'.app.db.alert pass.owner.userID
      (sys'.history pass.owner.account) listed pass.progress := by
  cases hprogress : pass.progress with
  | failed error => trivial
  | done history =>
      rw [hprogress] at h
      exact fun body hbody => (h body hbody).imp_left (hg.rowStored body)
  | next r =>
      rw [hprogress] at h
      intro c hc body hbody
      have hbelow := h c hc body hbody
      -- The checkpoint is the id of the first row that was read.
      obtain ⟨-, read, rest, hstretch, hstart, hhead, -⟩ :=
        hp.reads r hprogress
      cases read with
      | nil =>
          rw [(hstart rfl).2] at hc
          cases hc
      | cons x read =>
          obtain ⟨hnamed, hnew⟩ := hhead x rfl
          rw [hnew] at hc
          cases hc
          have hx : x ∈ sys.history pass.owner.account :=
            hstretch.mem List.mem_cons_self
          rcases hg.history pass.owner.account with he | ⟨y, he, hy⟩
          · rw [he]
            exact hbelow
          · rw [he]
            have hne : rowID codec y ≠ rowID codec x := by
              intro heq
              exact hy (heq ▸ hnamed) x hx heq.symm
            have habove : atOrBelow (rowID codec) (rowID codec x)
                ([y] ++ sys.history pass.owner.account)
                = atOrBelow (rowID codec) (rowID codec x)
                  (sys.history pass.owner.account) :=
              atOrBelow_append (by simpa using hne) _
            rw [List.singleton_append] at habove
            rw [habove]
            exact hbelow

/-- A reading without a checkpoint asks for the first page. -/
theorem answer_first {rows : List Json} {r : Reading} {size : Nat}
    (h : Reads codec rows r) (hnew : r.newCheckpoint = none) :
    sys.answer codec account r size
      = (sys.history account).take (min (max 1 size) historyPageSize) := by
  obtain ⟨read, rest, -, hstart, hhead, -⟩ := h
  cases read with
  | nil =>
      unfold System.answer
      simp only [(hstart rfl).1, if_true]
  | cons x read =>
      have hx := (hhead x rfl).2
      rw [hnew] at hx
      cases hx

/-- With its first page, a reading has all rows at or below its
checkpoint. -/
theorem atOrBelow_first {head body : Json} {data rows : List Json}
    {size : Nat} (htake : rows.take (min (max 1 size) historyPageSize)
      = head :: data) (hbody : body ∈ rows) :
    body ∈ atOrBelow (rowID codec) (rowID codec head) rows := by
  cases rows with
  | nil => cases hbody
  | cons first more =>
      have hone : min (max 1 size) historyPageSize
          = min (max 1 size) historyPageSize - 1 + 1 := by
        unfold historyPageSize
        omega
      rw [hone, List.take_succ_cons] at htake
      rw [(List.cons.inj htake).1.symm, atOrBelow_cons rfl]
      exact hbody

/-- A page of a reading that has begun after the last notification. -/
theorem Caught.page {owner : Owner} {r : Reading} {listed : List Json}
    {size : Nat} (hi : Inv codec sys)
    (hpass : sys.passes passID = some ⟨owner, .next r⟩)
    (hknown : ∀ body ∈ listed, body ∈ sys.history owner.account)
    (h : Caught codec sys.app.db.alert owner.userID
      (sys.history owner.account) listed (.next r)) :
    Caught codec sys.app.db.alert owner.userID
      (sys.history owner.account) listed
      (r.page ((sys.answer codec owner.account r size).map
        (decodeDonation codec))) := by
  have hp := hi.passes passID _ hpass
  obtain ⟨hcheckpoint, hreads⟩ := hp.reads r rfl
  have hdistinct := hi.distinct owner.account
  obtain ⟨read, rest, hhas, hanswer⟩ := hreads.answer hdistinct size
  -- The checkpoint after a page has all listed rows at or below it.
  have hafter : ∀ head data,
      sys.answer codec owner.account r size = head :: data →
      ∀ c ∈ (r.newCheckpoint <|> some (rowID codec head)),
        ∀ body ∈ listed,
          body ∈ atOrBelow (rowID codec) c (sys.history owner.account) := by
    intro head data hdata c hc body hbody
    cases hnew : r.newCheckpoint with
    | some old =>
        rw [hnew] at hc
        exact h c (by rw [hnew]; exact hc) body hbody
    | none =>
        rw [hnew] at hc
        cases hc
        rw [answer_first hreads hnew] at hdata
        exact atOrBelow_first hdata (hknown body hbody)
  cases hpage : r.page ((sys.answer codec owner.account r size).map
      (decodeDonation codec)) with
  | failed error => trivial
  | next next =>
      intro c hc body hbody
      obtain ⟨row, more, hrows, -, -, -, -, -, hnewCheckpoint, -⟩ :=
        Reading.page_next hpage
      obtain ⟨head, data, hdata, hrow, -⟩ := List.map_eq_cons_iff.mp hrows
      have hid : rowID codec head = row.id :=
        congrArg DecodedDonation.id hrow
      rw [hnewCheckpoint, ← hid] at hc
      exact hafter head data hdata c hc body hbody
  | done history =>
      intro body hbody
      -- The checkpoint of the pass covers all rows at or below it.
      have hcovered : ∀ c ∈ history.checkpoint,
          body ∈ atOrBelow (rowID codec) c (sys.history owner.account) →
          RowStored codec owner.userID sys.app.db.alert body
            ∨ ∀ d, (decodeDonation codec body).donation = .ok d →
              d ∈ history.donations := by
        intro c hc hin
        rw [hanswer] at hpage
        have hfinishes : Finishes codec sys owner.userID owner.account
            history c := by
          refine Reads.done hdistinct hhas ?_ ?_ hpage hc
          · unfold historyPageSize
            omega
          · rw [hcheckpoint]
            exact hp.vouched
        exact hfinishes.covers body hin
      cases hdata : sys.answer codec owner.account r size with
      | cons head data =>
          rw [hdata] at hpage
          have hc : history.checkpoint
              = (r.newCheckpoint <|> some (rowID codec head)) :=
            (Reading.page_met hpage).2.1
          cases he : (r.newCheckpoint <|> some (rowID codec head)) with
          | none =>
              cases hnew : r.newCheckpoint <;> rw [hnew] at he <;> cases he
          | some c =>
              exact hcovered c (hc.trans he) (hafter head data hdata c he
                body hbody)
      | nil =>
          rw [hdata] at hpage
          injection hpage with hpage
          cases hnew : r.newCheckpoint with
          | some c =>
              have hc : history.checkpoint = some c := by
                rw [← hpage]
                show (r.newCheckpoint <|> r.checkpoint) = some c
                rw [hnew]
                rfl
              exact hcovered c hc (h c hnew body hbody)
          | none =>
              -- An empty first page: the account has no rows.
              rw [answer_first hreads hnew] at hdata
              have hin := hknown body hbody
              cases hrows : sys.history owner.account with
              | nil =>
                  rw [hrows] at hin
                  cases hin
              | cons first more =>
                  rw [hrows, List.take_eq_nil_iff] at hdata
                  rcases hdata with hzero | hnil
                  · unfold historyPageSize at hzero
                    omega
                  · cases hnil

-- ================================= invariant

/-- What holds while the adapter runs for a listener. -/
structure Running (codec : RowCodec Json) (passID listenerID : Nat)
    (s : State Json) (l : Donations.Listener) : Prop where
  listener : s.listener listenerID = some l
  serves : l.provider = .streamlabs ∧ l.unrecorded = none
  known : ∀ body ∈ s.listed,
    body ∈ s.sys.history l.connection.sourceUserID
  rests : s.phase = .waiting → s.wakes = false → ∀ body ∈ s.listed,
    RowStored codec l.connection.userID s.sys.app.db.alert body
  reads : ∀ delay, s.phase = .reading delay → ∃ progress,
    s.sys.passes passID
        = some ⟨.listener listenerID l.connection, progress⟩
      ∧ (s.wakes = false →
        Caught codec s.sys.app.db.alert l.connection.userID
          (s.sys.history l.connection.sourceUserID) s.listed progress)

/-- The adapter's phase, its pass and its listener agree. -/
structure AdapterInv (codec : RowCodec Json) (passID listenerID : Nat)
    (s : State Json) : Prop where
  inv : Inv codec s.sys
  runs : s.phase ≠ .stopped → ∃ l, Running codec passID listenerID s l

variable {l : Donations.Listener}

theorem AdapterInv.running (h : AdapterInv codec passID listenerID s)
    {phase : Phase} (hphase : s.phase = phase)
    (hne : phase ≠ .stopped) :
    ∃ l, Running codec passID listenerID s l :=
  h.runs (hphase ▸ hne)

/-- A step that reads nothing and begins no rest. -/
theorem Running.move (h : Running codec passID listenerID s l)
    {phase : Phase} (hwaiting : phase ≠ .waiting)
    (hreading : ∀ delay, phase ≠ .reading delay) (wakes : Bool)
    (log : List Entry) :
    Running codec passID listenerID
      { s with phase, wakes, log } l :=
  ⟨h.listener, h.serves, h.known, fun hp => absurd hp hwaiting,
    fun delay hp => absurd hp (hreading delay)⟩

/-- A call begins a pass. -/
theorem Running.call (h : Running codec passID listenerID s l)
    (delay : Nat) :
    Running codec passID listenerID
      (s.call codec passID listenerID delay) l := by
  have hget : s.sys.app.listeners.get? listenerID = some l := h.listener
  have hsys : s.sys.step codec (.reconcile passID listenerID)
      = s.sys.set passID
        (some (.start (.listener listenerID l.connection))) := by
    simp only [System.step, hget, h.serves.1, if_true]
  refine ⟨?_, h.serves, ?_, fun hp => ?_, fun d hd => ?_⟩
  · show (s.sys.step codec _).app.listeners.get? listenerID = some l
    rw [hsys]
    exact hget
  · intro body hbody
    show body ∈ (s.sys.step codec _).history l.connection.sourceUserID
    rw [hsys]
    exact h.known body hbody
  · cases hp
  · refine ⟨.next { checkpoint := l.connection.historyCheckpoint }, ?_,
      fun _ c hc => ?_⟩
    · show (s.sys.step codec _).passes passID = _
      rw [hsys]
      exact Function.update_self _ _ _
    · cases hc

/-- What others do. -/
theorem Running.other (h : Running codec passID listenerID s l)
    (hi : Inv codec s.sys) {a : Streamlabs.Action Json}
    (ha : leavesPass passID a = true)
    (hl : (s.sys.step codec a).app.listeners.get? listenerID
      = s.sys.app.listeners.get? listenerID) :
    Running codec passID listenerID
      { s with sys := s.sys.step codec a } l := by
  have hg : Grows codec s.sys (s.sys.step codec a) := grows_step hi a
  refine ⟨hl.trans h.listener, h.serves, fun body hbody => ?_,
    fun hp hw body hbody => ?_, fun delay hp => ?_⟩
  · have hin := h.known body hbody
    rcases hg.history l.connection.sourceUserID with he | ⟨new, he, -⟩
    · exact he ▸ hin
    · exact he ▸ List.mem_cons_of_mem new hin
  · exact hg.rowStored body (h.rests hp hw body hbody)
  · obtain ⟨progress, hpass, hcaught⟩ := h.reads delay hp
    refine ⟨progress, (passes_of_leaves ha).trans hpass, fun hw => ?_⟩
    exact Caught.grow hg (hi.passes passID _ hpass) (hcaught hw)

/-- A page of the pass. -/
theorem Running.page (h : Running codec passID listenerID s l)
    (hi : Inv codec s.sys) {delay : Nat} (hphase : s.phase = .reading delay)
    (size : Nat) :
    Running codec passID listenerID
      { s with sys := s.sys.step codec (.page passID size) } l := by
  obtain ⟨progress, hpass, hcaught⟩ := h.reads delay hphase
  cases progress with
  | done | failed =>
      have hsame : s.sys.step codec (.page passID size) = s.sys := by
        simp only [System.step, System.page, hpass]
      rw [hsame]
      exact h
  | next r =>
      have hsys : s.sys.step codec (.page passID size)
          = s.sys.set passID (some ⟨.listener listenerID l.connection,
            r.page ((s.sys.answer codec l.connection.sourceUserID r
              size).map (decodeDonation codec))⟩) := by
        simp only [System.step, System.page, hpass, Owner.account]
      rw [hsys]
      refine ⟨h.listener, h.serves, h.known, fun hp => ?_, fun d hd =>
        ⟨_, Function.update_self _ _ _, fun hw => ?_⟩⟩
      · cases hphase.symm.trans hp
      · have howner : Caught codec s.sys.app.db.alert l.connection.userID
            (s.sys.history l.connection.sourceUserID) s.listed (.next r) :=
          hcaught hw
        exact Caught.page hi hpass h.known howner

/-- The listener after a batch was stored. -/
def stored (l : Donations.Listener) (batch : Donations.DonationBatch) :
    Donations.Listener :=
  { l with
    connection := { l.connection with
      historyCheckpoint := batch.checkpoint } }

/-- A batch that is stored moves the listener's checkpoint. -/
theorem step_emit {app : Donations.State} {batch : Donations.DonationBatch}
    {time : Time} {draws : List DonationDraw}
    (hget : app.listeners.get? listenerID = some l)
    (hserves : l.provider = .streamlabs ∧ l.unrecorded = none)
    (hok : (Donations.saveDonations .streamlabs l.connection.version batch
      .live time draws app.db).1 = .ok ()) :
    (Donations.step app
        (.emit listenerID batch time draws)).listeners.get? listenerID
        = some (stored l batch)
      ∧ Holds batch .streamlabs l.connection.userID (Donations.step app
        (.emit listenerID batch time draws)).db.alert := by
  obtain ⟨hprovider, hnone⟩ := hserves
  have hid : l.listenerID = listenerID := Relational.Table.key_of_get? hget
  rcases @Donations.saveDonations_atomic .streamlabs l.connection.version
      batch .live time draws app.db with
    ⟨e, he⟩ | ⟨db', he, hholds, -⟩
  · rw [he] at hok
    cases hok
  · have hemit : l.emit batch time draws app.db
        = (some (stored l batch), db') := by
      have he : Donations.saveDonations l.provider l.connection.version
          batch .live time draws app.db = (.ok (), db') :=
        hprovider ▸ he
      unfold Donations.Listener.emit
      rw [he]
      rfl
    have hrunning : Donations.Listener.whileRunning
        (fun l db => l.emit batch time draws db) l app.db
        = (some (stored l batch), db') := by
      unfold Donations.Listener.whileRunning
      rw [if_pos hnone]
      exact hemit
    have hstep : Donations.step app (.emit listenerID batch time draws)
        = { app with
            db := db'
            listeners := app.listeners.update (·.listenerID = listenerID)
              (fun k => { stored l batch with listenerID := k.listenerID })
              (Relational.Table.keeps rfl) } := by
      show app.goOn listenerID _ = _
      unfold Donations.State.goOn
      simp only [hget, hrunning]
    rw [hstep]
    refine ⟨?_, hholds⟩
    rw [Relational.Table.get?_update, hget, Option.map_some, if_pos hid]
    rfl

/-- A batch that is accepted is stored, and with it all that was listed
when its reading began. -/
theorem Running.emit (h : Running codec passID listenerID s l)
    (hi : Inv codec s.sys) {delay : Nat} {owner : Owner}
    {history : History} {time : Time} {draws : List DonationDraw}
    (hphase : s.phase = .reading delay)
    (hpass : s.sys.passes passID = some ⟨owner, .done history⟩)
    (haccepts : s.accepts listenerID history time draws = true) :
    Running codec passID listenerID
      (s.emit codec passID listenerID history time draws)
      (stored l (streamlabsBatch history)) := by
  have hget : s.sys.app.listeners.get? listenerID = some l := h.listener
  obtain ⟨progress, hpass', hcaught⟩ := h.reads delay hphase
  cases hpass.symm.trans hpass'
  have hok : (Donations.saveDonations .streamlabs l.connection.version
      (streamlabsBatch history) .live time draws s.sys.app.db).1
      = .ok () := by
    unfold State.accepts State.listener at haccepts
    simp only [hget] at haccepts
    cases hresult : (Donations.saveDonations .streamlabs
        l.connection.version (streamlabsBatch history) .live time draws
        s.sys.app.db).1 with
    | ok value => rfl
    | error e =>
        rw [hresult] at haccepts
        cases haccepts
  obtain ⟨hlistener, hholds⟩ := step_emit hget h.serves hok
  have hsys : s.sys.step codec (.save passID time draws)
      = { s.sys.set passID none with
          app := Donations.step s.sys.app
            (.emit listenerID (streamlabsBatch history) time draws) } := by
    have hsame : ((s.sys.set passID none).app.listeners.get?
        listenerID).map (fun l => (l.provider, l.connection))
        = some (.streamlabs, l.connection) := by
      show (s.sys.app.listeners.get? listenerID).map _ = _
      rw [hget, Option.map_some, h.serves.1]
    simp only [System.step, System.save, hpass, hsame, if_true]
    rfl
  have hphase' : (s.emit codec passID listenerID history time draws).phase
      = .waiting := by
    unfold State.emit
    rw [haccepts]
    rfl
  have hg := grows_step hi (.save passID time draws)
  refine ⟨?_, h.serves, ?_, fun _ hw body hbody => ?_, fun d hd => ?_⟩
  · show (s.sys.step codec _).app.listeners.get? listenerID = _
    rw [hsys]
    exact hlistener
  · intro body hbody
    show body ∈ (s.sys.step codec _).history l.connection.sourceUserID
    rw [hsys]
    exact h.known body hbody
  · show RowStored codec l.connection.userID
      (s.sys.step codec _).app.db.alert body
    rcases hcaught hw body hbody with hold | hnew
    · exact hg.rowStored body hold
    · rw [hsys]
      intro d hok
      have hmem : d.toBatch ∈ (streamlabsBatch history).donations :=
        List.mem_map_of_mem (hnew d hok)
      exact hholds _ hmem
  · cases hphase'.symm.trans hd

-- ===================================== steps

theorem AdapterInv.call (h : AdapterInv codec passID listenerID s)
    (hphase : s.phase ≠ .stopped) (delay : Nat) :
    AdapterInv codec passID listenerID
      (s.call codec passID listenerID delay) := by
  obtain ⟨l, hl⟩ := h.runs hphase
  exact ⟨h.inv.step (.reconcile passID listenerID),
    fun _ => ⟨l, hl.call delay⟩⟩

theorem AdapterInv.failed (h : AdapterInv codec passID listenerID s)
    (hphase : s.phase ≠ .stopped) (delay : Nat) (unauthorized : Bool)
    (retryAfter : Nat) :
    AdapterInv codec passID listenerID
      (s.failed delay unauthorized retryAfter) := by
  unfold State.failed
  split
  case isTrue => exact ⟨h.inv, fun hp => absurd rfl hp⟩
  case isFalse =>
    obtain ⟨l, hl⟩ := h.runs hphase
    exact ⟨h.inv, fun _ => ⟨l, hl.move (by simp) (by simp) _ _⟩⟩

/-- Every step keeps the invariant. -/
theorem AdapterInv.step (h : AdapterInv codec passID listenerID s)
    (a : Action Json) :
    AdapterInv codec passID listenerID
      (s.step codec passID listenerID a) := by
  cases a with
  | start =>
      simp only [State.step]
      split
      case h_2 => exact h
      case h_1 l _ hl =>
        split
        case isFalse => exact h
        case isTrue hserves =>
          refine ⟨h.inv, fun _ => ⟨l, hl, hserves, ?_, ?_, ?_⟩⟩
          · intro body hbody
            cases hbody
          · intro _ _ body hbody
            cases hbody
          · intro delay hp
            cases hp
  | notify =>
      refine ⟨h.inv, fun hp => ?_⟩
      obtain ⟨l, hl⟩ := h.runs hp
      refine ⟨l, hl.listener, hl.serves, fun body hbody => ?_,
        fun _ hw => ?_, fun delay hd => ?_⟩
      · have hrows : s.rows listenerID
            = s.sys.history l.connection.sourceUserID := by
          unfold State.rows
          rw [hl.listener]
        exact hrows ▸ hbody
      · cases hw
      · obtain ⟨progress, hpass, -⟩ := hl.reads delay hd
        exact ⟨progress, hpass, fun hw => by cases hw⟩
  | done =>
      refine ⟨h.inv, fun hp => ?_⟩
      obtain ⟨l, hl⟩ := h.runs hp
      exact ⟨l, hl.listener, hl.serves, hl.known, hl.rests, hl.reads⟩
  | leave =>
      simp only [State.step]
      split
      case isTrue => exact ⟨h.inv, fun hp => absurd rfl hp⟩
      case isFalse => exact h
  | wake =>
      simp only [State.step]
      split
      case isFalse => exact h
      case isTrue hwake =>
        obtain ⟨l, hl⟩ := h.running hwake.1 (by simp)
        exact ⟨h.inv, fun _ => ⟨l, hl.move (by simp) (by simp) _ _⟩⟩
  | debounced =>
      simp only [State.step]
      split
      case isFalse => exact h
      case isTrue hphase =>
        obtain ⟨l, hl⟩ := h.running hphase (by simp)
        exact ⟨h.inv, fun _ => ⟨l, hl.move (by simp) (by simp) _ _⟩⟩
  | drain =>
      simp only [State.step]
      split
      case isFalse => exact h
      case isTrue hphase =>
        obtain ⟨l, hl⟩ := h.running hphase (by simp)
        split
        case isTrue =>
          refine ⟨h.inv, fun _ => ⟨l, ?_⟩⟩
          rw [hphase]
          exact hl.move (by simp) (by simp) _ _
        case isFalse =>
          have hbegun : AdapterInv codec passID listenerID
              { s with log := s.log ++ [.begun] } :=
            ⟨h.inv, fun _ => ⟨l, hl.listener, hl.serves, hl.known,
              hl.rests, hl.reads⟩⟩
          exact hbegun.call (hphase ▸ Phase.noConfusion) retryStart
  | page size =>
      simp only [State.step]
      split
      case h_2 => exact h
      case h_1 delay hphase =>
        obtain ⟨l, hl⟩ := h.running hphase (by simp)
        exact ⟨h.inv.step (.page passID size),
          fun _ => ⟨l, hl.page h.inv hphase size⟩⟩
  | fails unauthorized retryAfter =>
      simp only [State.step]
      split
      case h_1 hphase _ =>
        exact h.failed (hphase ▸ Phase.noConfusion) _ _ _
      case h_2 hphase _ =>
        exact h.failed (hphase ▸ Phase.noConfusion) _ _ _
      case h_3 => exact h
  | retry =>
      simp only [State.step]
      split
      case h_2 => exact h
      case h_1 hphase => exact h.call (hphase ▸ Phase.noConfusion) _
  | emit time draws =>
      simp only [State.step]
      split
      case h_2 => exact h
      case h_1 delay owner history hphase hpass =>
        split
        case isTrue => exact h
        case isFalse =>
          refine ⟨h.inv.step (.save passID time draws), fun hp => ?_⟩
          obtain ⟨l, hl⟩ := h.running hphase (by simp)
          have haccepts : s.accepts listenerID history time draws
              = true := by
            cases ha : s.accepts listenerID history time draws with
            | true => rfl
            | false =>
                refine absurd ?_ hp
                unfold State.emit
                rw [ha]
                rfl
          exact ⟨_, hl.emit h.inv hphase hpass haccepts⟩
  | other a =>
      simp only [State.step]
      split
      case isFalse => exact h
      case isTrue hother =>
        refine ⟨h.inv.step a, fun hp => ?_⟩
        obtain ⟨l, hl⟩ := h.runs hp
        obtain ⟨hleaves, hsame⟩ := hother.resolve_right hp
        exact ⟨l, hl.other h.inv hleaves hsame⟩

theorem adapterInv_run (acts : List (Action Json)) :
    AdapterInv codec passID listenerID
      (Run.run (State.step codec passID listenerID) (.init Json) acts) :=
  Run.run_preserves ⟨inv_init, fun hp => absurd rfl hp⟩
    (fun _ a h => h.step a) acts

-- ===================================== waits

/-- The delay of a wait. -/
def Entry.wait : Entry → Option Nat
  | .retried delay _ _ => some delay
  | .begun | .emitted => none

/-- A reconciliation begins with the first delay again. -/
def Entry.resets : Entry → Bool
  | .begun => true
  | .retried _ _ _ | .emitted => false

/-- The waits of a log are those of the back-off. -/
abbrev Paced (log : List Entry) (retry : Nat) : Prop :=
  Backoff.Paced Entry.wait Entry.resets retryStart retryMax log retry

/-- The delay of the reading under way is that of the log. -/
structure Logged (s : State Json) : Prop where
  paced : ∃ retry, Paced s.log retry
  reading : ∀ delay, s.phase = .reading delay → Paced s.log delay
  retrying : ∀ delay, s.phase = .retrying delay →
    Paced s.log (min (delay * 2) retryMax)
  longer : ∀ delay retryAfter seconds,
    Entry.retried delay retryAfter seconds ∈ s.log →
      seconds = max delay retryAfter

/-- A step that begins no reading and logs nothing. -/
theorem Logged.move (h : Logged s) {s' : State Json} (hlog : s'.log = s.log)
    (hreading : ∀ delay, s'.phase = .reading delay →
      s.phase = .reading delay)
    (hretrying : ∀ delay, s'.phase = .retrying delay →
      s.phase = .retrying delay) : Logged s' := by
  refine ⟨?_, fun delay hp => ?_, fun delay hp => ?_, ?_⟩
  · rw [hlog]
    exact h.paced
  · rw [hlog]
    exact h.reading delay (hreading delay hp)
  · rw [hlog]
    exact h.retrying delay (hretrying delay hp)
  · rw [hlog]
    exact h.longer

/-- A request that fails logs how long the retry waits. -/
theorem Logged.failed (h : Logged s) {delay : Nat}
    (hphase : s.phase = .reading delay) (unauthorized : Bool)
    (retryAfter : Nat) : Logged (s.failed delay unauthorized retryAfter) := by
  unfold State.failed
  split
  case isTrue =>
    refine h.move rfl (fun d hd => ?_) fun d hd => ?_
    · cases hd
    · cases hd
  case isFalse =>
    have hpaced := (h.reading delay hphase).snoc_wait
      (e := .retried delay retryAfter (max delay retryAfter)) rfl rfl
    refine ⟨⟨_, hpaced⟩, fun d hd => ?_, fun d hd => ?_,
      fun d r seconds he => ?_⟩
    · cases hd
    · cases hd
      exact hpaced
    · rcases List.mem_append.mp he with hold | hnew
      · exact h.longer d r seconds hold
      · cases List.mem_singleton.mp hnew
        rfl

/-- Every step keeps the retries logged. -/
theorem Logged.step (h : Logged s) (a : Action Json) :
    Logged (s.step codec passID listenerID a) := by
  cases a with
  | start =>
      simp only [State.step]
      split
      case h_2 => exact h
      case h_1 =>
        split
        case isFalse => exact h
        case isTrue =>
          refine ⟨⟨_, Backoff.Paced.init (by decide)⟩, ?_, ?_, ?_⟩
          · intro delay hp
            cases hp
          · intro delay hp
            cases hp
          · intro delay retryAfter seconds he
            cases he
  | notify | done => exact h.move rfl (fun _ hp => hp) (fun _ hp => hp)
  | leave =>
      simp only [State.step]
      split
      case isTrue =>
        refine h.move rfl (fun d hd => ?_) fun d hd => ?_
        · cases hd
        · cases hd
      case isFalse => exact h
  | wake =>
      simp only [State.step]
      split
      case isTrue =>
        refine h.move rfl (fun d hd => ?_) fun d hd => ?_
        · cases hd
        · cases hd
      case isFalse => exact h
  | debounced =>
      simp only [State.step]
      split
      case isTrue =>
        refine h.move rfl (fun d hd => ?_) fun d hd => ?_
        · cases hd
        · cases hd
      case isFalse => exact h
  | drain =>
      simp only [State.step]
      split
      case isFalse => exact h
      case isTrue =>
        split
        case isTrue => exact h.move rfl (fun _ hp => hp) (fun _ hp => hp)
        case isFalse =>
          obtain ⟨retry, hpaced⟩ := h.paced
          have hbegun : Paced (s.log ++ [.begun]) retryStart :=
            hpaced.snoc_reset (by decide) rfl rfl
          refine ⟨⟨_, hbegun⟩, fun d hd => ?_, fun d hd => ?_,
            fun d r seconds he => ?_⟩
          · cases hd
            exact hbegun
          · cases hd
          · rcases List.mem_append.mp he with hold | hnew
            · exact h.longer d r seconds hold
            · cases List.mem_singleton.mp hnew
  | page size =>
      simp only [State.step]
      split
      case h_1 => exact h.move rfl (fun _ hp => hp) (fun _ hp => hp)
      case h_2 => exact h
  | fails unauthorized retryAfter =>
      simp only [State.step]
      split
      case h_1 hphase _ => exact h.failed hphase _ _
      case h_2 hphase _ => exact h.failed hphase _ _
      case h_3 => exact h
  | retry =>
      simp only [State.step]
      split
      case h_2 => exact h
      case h_1 delay hphase =>
        have hpaced := h.retrying delay hphase
        refine ⟨⟨_, hpaced⟩, fun d hd => ?_, fun d hd => ?_, h.longer⟩
        · cases hd
          exact hpaced
        · cases hd
  | emit time draws =>
      simp only [State.step]
      split
      case h_2 => exact h
      case h_1 delay owner history hphase hpass =>
        split
        case isTrue => exact h
        case isFalse =>
          have hpaced : Paced (s.log ++ [.emitted]) delay :=
            (h.reading delay hphase).snoc rfl rfl
          refine ⟨⟨_, hpaced⟩, fun d hd => ?_, fun d hd => ?_,
            fun d r seconds he => ?_⟩
          · unfold State.emit at hd
            simp only at hd
            split at hd <;> cases hd
          · unfold State.emit at hd
            simp only at hd
            split at hd <;> cases hd
          · rcases List.mem_append.mp he with hold | hnew
            · exact h.longer d r seconds hold
            · cases List.mem_singleton.mp hnew
  | other a =>
      simp only [State.step]
      split
      case isTrue => exact h.move rfl (fun _ hp => hp) (fun _ hp => hp)
      case isFalse => exact h

theorem logged_run (acts : List (Action Json)) :
    Logged
      (Run.run (State.step codec passID listenerID) (.init Json) acts) := by
  refine Run.run_preserves ⟨⟨_, Backoff.Paced.init (by decide)⟩, ?_, ?_, ?_⟩
    (fun _ a h => h.step a) acts
  · intro delay hp
    cases hp
  · intro delay hp
    cases hp
  · intro delay retryAfter seconds he
    cases he

-- =================================== repeats

/-- A reading that fails waits, and is begun anew after the wait, unless
the credentials are refused, or the listener or the context has ended. -/
structure Repeats (codec : RowCodec Json) (passID listenerID : Nat)
    (s : State Json) : Prop where
  /-- the request of a page fails -/
  request : ∀ delay owner r retryAfter, s.phase = .reading delay →
    s.done = false → s.sys.passes passID = some ⟨owner, .next r⟩ →
    s.step codec passID listenerID (.fails false retryAfter)
      = { s with
          phase := .retrying delay
          log := s.log
            ++ [.retried delay retryAfter (max delay retryAfter)] }
  /-- what the pages hold is no history -/
  history : ∀ delay owner error unauthorized retryAfter,
    s.phase = .reading delay → s.done = false →
    s.sys.passes passID = some ⟨owner, .failed error⟩ →
    s.step codec passID listenerID (.fails unauthorized retryAfter)
      = { s with
          phase := .retrying delay
          log := s.log ++ [.retried delay 0 delay] }
  /-- the wait is over -/
  anew : ∀ delay, s.phase = .retrying delay →
    ∃ l, s.listener listenerID = some l
      ∧ (s.step codec passID listenerID .retry).phase
        = .reading (min (delay * 2) retryMax)
      ∧ (s.step codec passID listenerID .retry).log = s.log
      ∧ (s.step codec passID listenerID .retry).sys.passes passID
        = some (.start (.listener listenerID l.connection))

/-- A failed reconciliation is repeated. -/
theorem AdapterInv.repeats (h : AdapterInv codec passID listenerID s) :
    Repeats codec passID listenerID s where
  request delay owner r retryAfter hphase hdone hpass := by
    simp only [State.step, hphase, hpass, State.failed, hdone,
      Bool.or_self, Bool.false_eq_true, if_false]
  history delay owner error unauthorized retryAfter hphase hdone hpass := by
    simp only [State.step, hphase, hpass, State.failed, hdone,
      Bool.or_self, Bool.false_eq_true, if_false, Nat.max_zero]
  anew delay hphase := by
    obtain ⟨l, hl⟩ := h.running hphase (by simp)
    have hget : s.sys.app.listeners.get? listenerID = some l := hl.listener
    have hretry : s.step codec passID listenerID .retry
        = s.call codec passID listenerID (min (delay * 2) retryMax) := by
      simp only [State.step, hphase]
    have hsys : s.sys.step codec (.reconcile passID listenerID)
        = s.sys.set passID
          (some (.start (.listener listenerID l.connection))) := by
      simp only [System.step, hget, hl.serves.1, if_true]
    rw [hretry]
    refine ⟨l, hl.listener, rfl, rfl, ?_⟩
    show (s.sys.step codec _).passes passID = _
    rw [hsys]
    exact Function.update_self _ _ _

-- =================================== results

/-- In every run, whenever the adapter rests and no wake-up is left, all
valid rows that its account had at the last notification are stored for
the user. A reading that fails is begun anew after a wait, and the wait
is the delay that the failures of this reconciliation make it, five
seconds to a minute, or the longer one that the provider asked for. -/
theorem notified_stored (codec : RowCodec Json) (passID listenerID : Nat)
    (acts : List (Action Json)) :
    let s := Run.run (State.step codec passID listenerID) (.init Json) acts
    (s.phase = .waiting → s.wakes = false →
      ∃ l, s.listener listenerID = some l
        ∧ ∀ body ∈ s.listed,
          RowStored codec l.connection.userID s.sys.app.db.alert body)
    ∧ Repeats codec passID listenerID s
    ∧ History.Justified (fun before e => ∀ delay retryAfter seconds,
        e = .retried delay retryAfter seconds →
        seconds = max (min (5 * 2 ^ Backoff.streak Entry.wait Entry.resets
          before) 60) retryAfter) s.log := by
  intro s
  have hi : AdapterInv codec passID listenerID s := adapterInv_run acts
  have hlogged : Logged s := logged_run acts
  refine ⟨?_, hi.repeats, ?_⟩
  · intro hphase hwakes
    obtain ⟨l, hl⟩ := hi.running hphase (by simp)
    exact ⟨l, hl.listener, hl.rests hphase hwakes⟩
  · intro before e after hlog delay retryAfter seconds he
    obtain ⟨retry, hpaced⟩ := hlogged.paced
    have hdelay : delay = min (5 * 2 ^ Backoff.streak Entry.wait
        Entry.resets before) 60 :=
      hpaced.waits before e after hlog delay (by rw [he]; rfl)
    have hmem : Entry.retried delay retryAfter seconds ∈ s.log := by
      rw [hlog, he]
      simp
    rw [hlogged.longer delay retryAfter seconds hmem, hdelay]

/-- A donation that comes in, and is notified, while the one before it is
read. -/
def livelyRun : List (Action (String × Option RawDonation)) :=
  let row (id : String) := (id, some
    { createdAt := "1438576556", currency := "USD", amount := "2" })
  let read : List (Action (String × Option RawDonation)) :=
    [.wake, .debounced, .drain, .page 9]
  let importing : List (Streamlabs.Action (String × Option RawDonation)) :=
    [.publish "s" (row "20"),
      .connect 1 1
        { accessToken := "a", refreshToken := "r", sourceUserID := "s" },
      .page 1 0, .page 1 0, .save 1 0 [⟨1, ⟨1, 0⟩⟩],
      .task (.startListener 7 .streamlabs 1)]
  importing.map .other
    ++ [.start, .other (.publish "s" (row "30")), .notify] ++ read
    ++ [.other (.publish "s" (row "40")), .notify,
      .emit 0 [⟨2, ⟨2, 0⟩⟩]] ++ read ++ [.emit 0 [⟨3, ⟨3, 0⟩⟩]]

example :
    let s := Run.run (State.step plainCodec 0 7) (.init _) livelyRun
    s.phase = .waiting ∧ s.wakes = false
      ∧ Stored 1 .streamlabs "40" s.sys.app.db.alert := by
  decide

end StreamBrew.Streamlabs.Adapter
