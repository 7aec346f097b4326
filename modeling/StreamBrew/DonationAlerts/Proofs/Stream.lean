/-
Recovery without a gap, over whole runs: what a connection owes.

Before the subscribe command is answered, nothing in the queue is about
the stream. While the answer is on its way, the session still asks from
where it was. After it was read, the queue brings the stream from where
the session has come to. `Phase` says this, every step of the system keeps
it (`System.Inv.step`), and with it `Good` holds of every state of every
run.
-/
import StreamBrew.DonationAlerts.Proofs.Replies

namespace StreamBrew.DonationAlerts.Socket

open Pass History

variable {Json Donation : Type} {codec : Codec Json Donation}
variable {emit : List Donation → Donation → Bool}
variable {s t : Session Json Donation}
variable {publication : SocketPublication Json}
variable {error : Option SessionError}

-- =============================== connections

section Connections

variable {log : String → List (Published Json)}
variable {surroundings : Surroundings Donation} {message : Message Json}

/-- What a message that is not about the stream does to the commands of a
session. -/
inductive Commands (s t : Session Json Donation) : Prop
  | same (hrequested : t.requested = s.requested)
      (hpending : t.pending = s.pending)
  | answered {kind : CommandKind} (hkind : kind ≠ .subscribe)
      (hrequested : t.requested = s.requested)
      (hpending : t.pending = s.pending.erase kind)
  | asked (hconnect : .connect ∈ s.pending)
      (hrequested : t.requested = some s.recoverFrom)
      (hpending : t.pending = .subscribe :: s.pending.erase .connect)

/-- What such a message leaves as it was. -/
structure Session.Keeps (s t : Session Json Donation) : Prop where
  channel : t.channel = s.channel
  position : t.position = s.position
  calls : t.calls = s.calls
  start : t.start = s.start

theorem Session.Keeps.refl (s : Session Json Donation) : s.Keeps s :=
  ⟨rfl, rfl, rfl, rfl⟩

theorem handle_push_foreign {push : SocketPush Json}
    (hforeign : push.type.getD pushPublication = pushPublication →
      push.channel ≠ s.channel)
    (h : handlePush codec emit s push = (t, error)) : t = s := by
  by_cases htype : push.type.getD pushPublication = pushPublication
  · rw [push_foreign htype (hforeign htype)] at h
    cases h
    rfl
  · unfold handlePush at h
    simp only [htype, if_false] at h
    split_ifs at h
    · cases h
      rfl
    · split at h <;> (cases h; rfl)
    · cases h
      rfl
    · split at h <;> (cases h; rfl)
    · cases h
      rfl
    · cases h
      rfl

/-- A connected session asks to subscribe from where it stands. -/
theorem handle_connected {connected : ConnectResult}
    (h : handleConnected surroundings s connected = (t, error)) :
    s.Keeps t ∧ (error = none →
      t.requested = some s.recoverFrom
        ∧ t.pending = .subscribe :: s.pending) := by
  unfold handleConnected at h
  have hfailed (herror : error ≠ none) (hkeeps : s.Keeps t) :
      s.Keeps t ∧ (error = none →
        t.requested = some s.recoverFrom
          ∧ t.pending = .subscribe :: s.pending) :=
    ⟨hkeeps, fun hnone => absurd hnone herror⟩
  cases htoken : surroundings.tokenError with
  | some unauthorized =>
      simp only [htoken] at h
      split_ifs at h <;> cases h <;>
        exact hfailed (by simp) ⟨rfl, rfl, rfl, rfl⟩
  | none =>
      simp only [htoken] at h
      split_ifs at h <;> cases h
      · exact hfailed (by simp) ⟨rfl, rfl, rfl, rfl⟩
      · exact hfailed (by simp) ⟨rfl, rfl, rfl, rfl⟩
      · exact ⟨⟨rfl, rfl, rfl, rfl⟩, fun _ => ⟨rfl, rfl⟩⟩
      · exact hfailed (by simp) ⟨rfl, rfl, rfl, rfl⟩

theorem handle_refreshed {name : String} {refreshed : RefreshResult}
    (h : handleRefreshed name s refreshed = (t, error)) : t = s := by
  unfold handleRefreshed at h
  split_ifs at h <;> (cases h; rfl)

/-- A result is decoded and handled, or the session ends. -/
theorem withResult_cases {α : Type} {kind : CommandKind}
    {decode : Json → Option α} {result : Option Json}
    {next : α → Session Json Donation × Option SessionError}
    (h : withResult kind decode result s next = (t, error)) :
    (t = s ∧ error ≠ none)
      ∨ ∃ body value, result = some body ∧ decode body = some value
        ∧ next value = (t, error) := by
  unfold withResult at h
  cases result with
  | none =>
      cases h
      exact .inl ⟨rfl, by simp⟩
  | some body =>
      cases hvalue : decode body with
      | none =>
          simp only [hvalue] at h
          cases h
          exact .inl ⟨rfl, by simp⟩
      | some value =>
          simp only [hvalue] at h
          exact .inr ⟨body, value, rfl, hvalue, h⟩

/-- A message that is not about the stream leaves what was passed on. -/
theorem handle_foreign (hforeign : Foreign codec s.channel message)
    (h : handle codec surroundings s message = (t, error)) :
    s.Keeps t ∧ (error = none → Commands s t) := by
  have hsame (ht : t = s) : s.Keeps t ∧ (error = none → Commands s t) := by
    subst ht
    exact ⟨.refl _, fun _ => .same rfl rfl⟩
  cases message with
  | malformed =>
      cases h
      exact hsame rfl
  | empty =>
      cases h
      exact hsame rfl
  | push result =>
      cases result with
      | none =>
          cases h
          exact hsame rfl
      | some body =>
          unfold handle at h
          cases hpush : codec.push body with
          | none =>
              simp only [hpush] at h
              cases h
              exact hsame rfl
          | some push =>
              simp only [hpush] at h
              exact hsame (handle_push_foreign (hforeign push hpush) h)
  | reply command failure result =>
      cases command with
      | none =>
          cases h
          exact hsame rfl
      | some kind =>
          unfold handle at h
          by_cases hmem : kind ∈ s.pending
          · simp only [hmem, not_true_eq_false, if_false] at h
            have herased (ht : t = { s with pending := s.pending.erase kind })
                (hkind : error = none → kind ≠ .subscribe) :
                s.Keeps t ∧ (error = none → Commands s t) := by
              subst ht
              exact ⟨⟨rfl, rfl, rfl, rfl⟩,
                fun hnone => .answered (hkind hnone) rfl rfl⟩
            cases failure with
            | some failure =>
                cases h
                exact herased rfl fun hnone => by cases hnone
            | none =>
                cases kind with
                | connect =>
                    rcases withResult_cases h with
                      ⟨ht, -⟩ | ⟨body, value, -, -, hnext⟩
                    · exact herased ht fun _ => by decide
                    · obtain ⟨hkeeps, hasked⟩ := handle_connected hnext
                      refine ⟨⟨hkeeps.channel, hkeeps.position, hkeeps.calls,
                        hkeeps.start⟩, fun hnone => ?_⟩
                      obtain ⟨hrequested, hpending⟩ := hasked hnone
                      exact .asked hmem hrequested hpending
                | subscribe =>
                    rcases withResult_cases h with
                      ⟨ht, herror⟩ | ⟨body, value, hbody, hvalue, -⟩
                    · exact herased ht fun hnone => absurd hnone herror
                    · have hnone := hforeign rfl rfl body hbody
                      rw [hvalue] at hnone
                      cases hnone
                | ping =>
                    cases h
                    exact herased rfl fun _ => by decide
                | refresh =>
                    rcases withResult_cases h with
                      ⟨ht, -⟩ | ⟨body, value, -, -, hnext⟩
                    · exact herased ht fun _ => by decide
                    · exact herased (handle_refreshed hnext)
                        fun _ => by decide
                | subRefresh =>
                    rcases withResult_cases h with
                      ⟨ht, -⟩ | ⟨body, value, -, -, hnext⟩
                    · exact herased ht fun _ => by decide
                    · exact herased (handle_refreshed hnext)
                        fun _ => by decide
          · simp only [hmem, not_false_eq_true, if_true] at h
            cases h
            exact hsame rfl

/-- A queue that brings the publications of a log from one place up to
another, among messages that are not about the stream. -/
inductive Queued (codec : Codec Json Donation) (channel : String)
    (log : List (Published Json)) :
    Nat → List (Message Json) → Nat → Prop
  | nil (k : Nat) : Queued codec channel log k [] k
  | foreign {k stop : Nat} {message : Message Json}
      {queue : List (Message Json)}
      (hforeign : Foreign codec channel message)
      (h : Queued codec channel log k queue stop) :
      Queued codec channel log k (message :: queue) stop
  | push {k stop : Nat} {x : Published Json} {message : Message Json}
      {queue : List (Message Json)} (hx : log[k]? = some x)
      (hpush : Pushes codec channel x message)
      (h : Queued codec channel log (k + 1) queue stop) :
      Queued codec channel log k (message :: queue) stop

section Queues

variable {channel : String} {entries : List (Published Json)}
variable {k stop : Nat} {queue : List (Message Json)}

theorem Queued.snoc_foreign (h : Queued codec channel entries k queue stop)
    (hforeign : Foreign codec channel message) :
    Queued codec channel entries k (queue ++ [message]) stop := by
  induction h with
  | nil k => exact .foreign hforeign (.nil k)
  | foreign hother _ ih => exact .foreign hother ih
  | push hx hpush _ ih => exact .push hx hpush ih

theorem Queued.snoc_push {x : Published Json}
    (h : Queued codec channel entries k queue stop)
    (hx : entries[stop]? = some x) (hpush : Pushes codec channel x message) :
    Queued codec channel entries k (queue ++ [message]) (stop + 1) := by
  induction h with
  | nil k => exact .push hx hpush (.nil (k + 1))
  | foreign hother _ ih => exact .foreign hother (ih hx)
  | push hy hother _ ih => exact .push hy hother (ih hx)

theorem Queued.grow (h : Queued codec channel entries k queue stop)
    (more : List (Published Json)) :
    Queued codec channel (entries ++ more) k queue stop := by
  induction h with
  | nil k => exact .nil k
  | foreign hother _ ih => exact .foreign hother ih
  | push hx hpush _ ih =>
      obtain ⟨hk, -⟩ := List.getElem?_eq_some_iff.mp hx
      exact .push ((List.getElem?_append_left hk).trans hx) hpush ih

end Queues

/-- A session has asked for its channel at most once. -/
def Session.Once (s : Session Json Donation) : Prop :=
  s.pending.count .connect ≤ if s.requested.isSome then 0 else 1

theorem Commands.once (h : Commands s t) (honce : s.Once) : t.Once := by
  unfold Session.Once at *
  cases h with
  | same hrequested hpending =>
      rw [hrequested, hpending]
      exact honce
  | answered _ hrequested hpending =>
      rw [hrequested, hpending]
      exact ((s.pending.erase_sublist).count_le _).trans honce
  | asked hconnect hrequested hpending =>
      have hcount := List.count_pos_iff.mpr hconnect
      rw [hrequested, hpending, List.count_cons_of_ne (by decide),
        List.count_erase_self]
      split at honce
      · omega
      · rw [Option.isSome_some, if_pos rfl]
        omega

theorem Commands.requested (h : Commands s t) (honce : s.Once)
    (hasked : s.requested.isSome) : t.requested = s.requested := by
  cases h with
  | same hrequested _ => exact hrequested
  | answered _ hrequested _ => exact hrequested
  | asked hconnect _ _ =>
      have hcount := List.count_pos_iff.mpr hconnect
      rw [Session.Once, if_pos hasked] at honce
      omega

theorem Commands.pending (h : Commands s t)
    (hmem : .subscribe ∈ s.pending) : .subscribe ∈ t.pending := by
  cases h with
  | same _ hpending => exact hpending ▸ hmem
  | answered hkind _ hpending =>
      rw [hpending]
      exact (List.mem_erase_of_ne hkind.symm).mpr hmem
  | asked _ _ hpending => exact hpending ▸ List.mem_cons_self

/-- What a session owes to the stream, by how far its subscription is. -/
inductive Phase (codec : Codec Json Donation)
    (log : String → List (Published Json)) (s : Session Json Donation)
    (connection : Connection Json) : Prop
  | asking (hcursor : connection.cursor = none)
      (hqueue : ∀ message ∈ connection.queue,
        Foreign codec s.channel message)
      (hrequested : ∀ requested, s.requested = some requested →
        requested = s.recoverFrom ∧ .subscribe ∈ s.pending)
  | answered {stop : Nat} {before after : List (Message Json)} {body : Json}
      {old new : List (Published Json)} {requested : Option StreamPosition}
      {subscribed : SubscriptionResult Json}
      (hcursor : connection.cursor = some stop)
      (hqueue : connection.queue
        = before ++ .reply (some .subscribe) none (some body) :: after)
      (hbefore : ∀ message ∈ before, Foreign codec s.channel message)
      (hafter : Queued codec s.channel (log connection.epoch) old.length
        after stop)
      (hlog : log connection.epoch = old ++ new)
      (hpending : .subscribe ∈ s.pending)
      (hrequested : s.requested = some requested
        ∧ requested = s.recoverFrom)
      (hbody : codec.subscription body = some subscribed)
      (hanswers : Answers connection.epoch old requested subscribed)
      (hcalls : ∀ call ∈ s.calls, call.epoch = connection.epoch →
        call.publication.offset ≤ top old)
  | reading {k stop : Nat} (hcursor : connection.cursor = some stop)
      (hk : k ≤ (log connection.epoch).length)
      (hqueue : Queued codec s.channel (log connection.epoch) k
        connection.queue stop)
      (hrequested : s.requested.isSome)
      (hnamed : s.position.epoch ≠ "" →
        s.position.epoch = connection.epoch)
      (hpassed : s.position.epoch ≠ "" →
        ∀ y ∈ (log connection.epoch).take k, y.Valid codec →
          s.start.Owes codec y →
            Emitted codec s.calls connection.epoch y)

theorem keeps_recoverFrom (h : s.Keeps t) : t.recoverFrom = s.recoverFrom := by
  rw [Session.recoverFrom, h.position, Session.recoverFrom]

theorem Good.keeps (hgood : Good codec log s) (h : s.Keeps t) :
    Good codec log t :=
  hgood.same h.position h.calls h.start

/-- A message that is not about the stream, in each phase. -/
theorem Phase.foreign {connection : Connection Json}
    {rest : List (Message Json)} (hphase : Phase codec log s connection)
    (honce : s.Once) (hqueue : connection.queue = message :: rest)
    (hforeign : Foreign codec s.channel message)
    (h : handle codec surroundings s message = (t, none)) :
    Phase codec log t { connection with queue := rest } := by
  obtain ⟨hkeeps, hcommands⟩ := handle_foreign hforeign h
  replace hcommands := hcommands rfl
  cases hphase with
  | asking hcursor hall hrequested =>
      refine .asking hcursor (fun m hm => ?_) ?_
      · rw [hkeeps.channel]
        exact hall m (hqueue ▸ List.mem_cons_of_mem _ hm)
      · intro requested ht
        rw [keeps_recoverFrom hkeeps]
        cases hcommands with
        | same hsame hpending =>
            obtain ⟨hr, hmem⟩ := hrequested requested (hsame ▸ ht)
            exact ⟨hr, hpending ▸ hmem⟩
        | answered hkind hsame hpending =>
            obtain ⟨hr, hmem⟩ := hrequested requested (hsame ▸ ht)
            exact ⟨hr, hpending ▸ (List.mem_erase_of_ne hkind.symm).mpr hmem⟩
        | asked _ hasked hpending =>
            rw [hasked, Option.some.injEq] at ht
            exact ⟨ht.symm, hpending ▸ List.mem_cons_self⟩
  | @answered stop before after body old new requested subscribed hcursor
      hsplit hbefore hafter hlog hpending hrequested hbody hanswers hcalls =>
      cases before with
      | nil =>
          rw [List.nil_append, hqueue] at hsplit
          injection hsplit with hmessage hrest
          subst hmessage
          have hnone := hforeign rfl rfl body rfl
          rw [hbody] at hnone
          cases hnone
      | cons first before =>
          rw [List.cons_append, hqueue] at hsplit
          injection hsplit with hmessage hrest
          refine .answered hcursor hrest (fun m hm => ?_)
            (hkeeps.channel ▸ hafter) hlog (hcommands.pending hpending)
            ⟨?_, ?_⟩ hbody hanswers (hkeeps.calls ▸ hcalls)
          · rw [hkeeps.channel]
            exact hbefore m (List.mem_cons_of_mem _ hm)
          · rw [hcommands.requested honce (by rw [hrequested.1]; rfl),
              hrequested.1]
          · rw [keeps_recoverFrom hkeeps]
            exact hrequested.2
  | @reading k stop hcursor hk hqueued hrequested hnamed hpassed =>
      rw [hqueue] at hqueued
      have hsame := hcommands.requested honce hrequested
      have hstay (hrest : Queued codec s.channel (log connection.epoch) k rest
          stop) : Phase codec log t { connection with queue := rest } := by
        refine .reading hcursor hk (hkeeps.channel ▸ hrest)
          (hsame ▸ hrequested) ?_ ?_
        · rw [hkeeps.position]
          exact hnamed
        · rw [hkeeps.position, hkeeps.start, hkeeps.calls]
          exact hpassed
      cases hqueued with
      | foreign _ hrest => exact hstay hrest
      | push hx hpush hrest =>
          obtain ⟨body, push, rfl, hdecode, htype, hchannel, -⟩ := hpush
          exact absurd hchannel (hforeign push hdecode htype)

/-- A push of the channel, with all before it passed on. -/
theorem Good.push {epoch : String} {k : Nat} {x : Published Json}
    (hlogs : Logs codec log) (hgood : Good codec log s) (hne : s.channel ≠ "")
    (hx : (log epoch)[k]? = some x)
    (hpush : Pushes codec s.channel x message)
    (hnamed : s.position.epoch ≠ "" → s.position.epoch = epoch)
    (hpassed : s.position.epoch ≠ "" → ∀ y ∈ (log epoch).take k,
      y.Valid codec → s.start.Owes codec y →
        Emitted codec s.calls epoch y)
    (h : handle codec surroundings s message = (t, error)) :
    Good codec log t ∧ s.Extends t ∧ t.start = s.start
      ∧ (error = none → s.position.epoch ≠ "" →
        ∀ y ∈ (log epoch).take (k + 1), y.Valid codec →
          s.start.Owes codec y → Emitted codec t.calls epoch y) := by
  obtain ⟨hk, hget⟩ := List.getElem?_eq_some_iff.mp hx
  have htake : (log epoch).take (k + 1) = (log epoch).take k ++ [x] := by
    rw [List.take_succ_eq_append_getElem hk, hget]
  have hsplit : log epoch = (log epoch).take k ++ x :: (log epoch).drop (k + 1)
      := by
    rw [← hget, ← List.drop_eq_getElem_cons hk, List.take_append_drop]
  have hmem : x ∈ log epoch := hget ▸ List.getElem_mem hk
  have hsorted := hlogs.sorted epoch
  rw [hsplit] at hsorted
  obtain ⟨body, push, rfl, hdecode, htype, hchannel, hdata⟩ := hpush
  unfold handle at h
  simp only [hdecode] at h
  rw [push_own htype hchannel hne, hdata, Option.bind_some] at h
  cases hp : codec.publication x.document with
  | none =>
      rw [hp] at h
      cases h
      refine ⟨hgood, .refl _, rfl, fun _ hepoch y hy hvalid hstart => ?_⟩
      rw [htake] at hy
      rcases List.mem_append.mp hy with hy | hy
      · exact hpassed hepoch y hy hvalid hstart
      · rw [List.mem_singleton.mp hy] at hvalid
        obtain ⟨_, _, _, hsome, -⟩ := hvalid
        rw [hp] at hsome
        cases hsome
  | some publication =>
      rw [hp] at h
      have hbefore : Before codec log s x.offset := by
        intro y hy hvalid hstart hlt
        have hepoch : s.position.epoch ≠ "" := by
          intro hepoch
          rw [hepoch, hlogs.unnamed] at hy
          cases hy
        rw [hnamed hepoch] at hy ⊢
        rw [hsplit] at hy
        exact hpassed hepoch y (mem_before hsorted hy hlt) hvalid hstart
      have hhandled := hgood.handles hlogs
        (fun hepoch => (hnamed hepoch).symm ▸ hmem) hp hbefore h
      refine ⟨hhandled.good, hhandled.frame, hhandled.start, ?_⟩
      intro hnone hepoch y hy hvalid hstart
      rw [htake] at hy
      rcases List.mem_append.mp hy with hy | hy
      · exact (hpassed hepoch y hy hvalid hstart).mono hhandled.frame.calls
      · rw [List.mem_singleton.mp hy] at hvalid ⊢
        have hemitted := hhandled.emitted hnone hepoch hvalid
        rwa [hnamed hepoch] at hemitted

/-- One message of a session. -/
theorem Phase.read {connection : Connection Json}
    {rest : List (Message Json)} (hlogs : Logs codec log)
    (hgood : Good codec log s) (hne : s.channel ≠ "") (honce : s.Once)
    (hphase : Phase codec log s connection)
    (hqueue : connection.queue = message :: rest)
    (h : handle codec surroundings s message = (t, error)) :
    Good codec log t ∧ t.channel = s.channel
      ∧ (error = none → t.Once
        ∧ Phase codec log t { connection with queue := rest }) := by
  by_cases hforeign : Foreign codec s.channel message
  · obtain ⟨hkeeps, hcommands⟩ := handle_foreign hforeign h
    refine ⟨hgood.keeps hkeeps, hkeeps.channel, ?_⟩
    rintro rfl
    exact ⟨(hcommands rfl).once honce,
      hphase.foreign honce hqueue hforeign h⟩
  cases hphase with
  | asking _ hall _ =>
      exact absurd (hall message (hqueue ▸ List.mem_cons_self)) hforeign
  | @answered stop before after body old new requested subscribed hcursor
      hsplit hbefore hafter hlog hpending hrequested hbody hanswers hcalls =>
      cases before with
      | cons first before =>
          rw [List.cons_append, hqueue] at hsplit
          injection hsplit with hmessage hrest
          exact absurd (hmessage ▸ hbefore first List.mem_cons_self) hforeign
      | nil =>
          rw [List.nil_append, hqueue] at hsplit
          injection hsplit with hmessage hrest
          subst hmessage hrest
          unfold handle at h
          simp only [hpending, not_true_eq_false, if_false] at h
          rcases withResult_cases h with
            ⟨rfl, herror⟩ | ⟨body', value, hbody', hvalue, hnext⟩
          · exact ⟨hgood.same rfl rfl rfl, rfl,
              fun hnone => absurd hnone herror⟩
          cases hbody'
          rw [hbody] at hvalue
          cases hvalue
          have herased : Good codec log
              { s with pending := s.pending.erase .subscribe } :=
            hgood.same rfl rfl rfl
          obtain ⟨ht, hchannel, hpending', hrequested', hdone⟩ :=
            herased.replied hlogs hlog hrequested.2 hanswers hcalls hnext
          refine ⟨ht, hchannel, fun hnone => ⟨?_, ?_⟩⟩
          · rw [Session.Once, hpending', hrequested']
            exact ((s.pending.erase_sublist).count_le _).trans honce
          · refine .reading hcursor ?_ (hchannel ▸ hafter) ?_
              (fun hepoch => (hdone hnone hepoch).1) fun hepoch y hy => ?_
            · rw [hlog, List.length_append]
              exact Nat.le_add_right _ _
            · rw [hrequested', hrequested.1]
              rfl
            · rw [hlog, List.take_left] at hy
              exact (hdone hnone hepoch).2 y hy
  | @reading k stop hcursor hk hqueued hrequested hnamed hpassed =>
      rw [hqueue] at hqueued
      cases hqueued with
      | foreign hnot _ => exact absurd hnot hforeign
      | push hx hpush hrest =>
          obtain ⟨ht, hext, hstart, hdone⟩ :=
            hgood.push hlogs hne hx hpush hnamed hpassed h
          refine ⟨ht, hext.channel, fun hnone => ⟨?_, ?_⟩⟩
          · rw [Session.Once, hext.pending, hext.requested]
            exact honce
          · refine .reading hcursor
              (List.getElem?_eq_some_iff.mp hx).1 (hext.channel ▸ hrest)
              (hext.requested ▸ hrequested) ?_ ?_
            · rw [hext.epoch]
              exact hnamed
            · rw [hext.epoch, hstart]
              exact hdone hnone

end Connections

-- ================================ publishing

section Publish

variable {server : Server Json} {x : Published Json}

theorem publish_log (server : Server Json) (x : Published Json)
    (epoch : String) : (server.publish x).log epoch
    = server.log epoch ++ if epoch = server.epoch then [x] else [] := by
  unfold Server.publish
  by_cases h : epoch = server.epoch
  · simp only [h, if_true]
  · simp only [h, if_false, List.append_nil]

/-- The streams stay sorted. -/
theorem Logs.publish (hlogs : Logs codec server.log)
    (hepoch : server.epoch ≠ "")
    (htop : top (server.log server.epoch) < x.offset)
    (hdocument : ∀ publication,
      codec.publication x.document = some publication →
        publication.sequence = x.sequence
          ∧ publication.generation = x.generation) :
    Logs codec (server.publish x).log where
  sorted epoch := by
    rw [publish_log]
    split
    next h =>
      subst h
      refine List.pairwise_append.mpr ⟨hlogs.sorted _,
        List.pairwise_singleton _ _, fun y hy z hz => ?_⟩
      rw [List.mem_singleton.mp hz]
      exact (offset_le_top (hlogs.sorted _) hy).trans_lt htop
    next =>
      rw [List.append_nil]
      exact hlogs.sorted epoch
  offset epoch y hy publication hp := by
    rw [publish_log] at hy
    rcases List.mem_append.mp hy with hy | hy
    · exact hlogs.offset epoch y hy publication hp
    · split at hy
      · rw [List.mem_singleton.mp hy] at hp ⊢
        obtain ⟨hsequence, hgeneration⟩ := hdocument publication hp
        rw [SocketPublication.offset, hsequence, hgeneration]
        rfl
      · cases hy
  positive epoch y hy := by
    rw [publish_log] at hy
    rcases List.mem_append.mp hy with hy | hy
    · exact hlogs.positive epoch y hy
    · split at hy
      · rw [List.mem_singleton.mp hy]
        omega
      · cases hy
  unnamed := by
    rw [publish_log, hlogs.unnamed, if_neg (Ne.symm hepoch)]
    rfl

/-- What is published after a position is owed for later. -/
theorem Good.publish (hlogs : Logs codec server.log)
    (hgood : Good codec server.log s) (hepoch : server.epoch ≠ "")
    (htop : top (server.log server.epoch) < x.offset) :
    Good codec (server.publish x).log s where
  stream := hgood.stream
  known := by
    refine hgood.known.imp_right fun hle => ?_
    rw [publish_log]
    split
    next h =>
      rw [top_append]
      rw [h] at hle
      exact hle.trans htop.le
    next =>
      rw [List.append_nil]
      exact hle
  calls call hcall := by
    refine (hgood.calls call hcall).imp_right ?_
    rintro ⟨y, hy, hp⟩
    exact ⟨y, by rw [publish_log]; exact List.mem_append_left _ hy, hp⟩
  covered y hy hvalid hstart hle := by
    rw [publish_log] at hy
    rcases List.mem_append.mp hy with hy | hy
    · exact hgood.covered y hy hvalid hstart hle
    · split at hy
      next h =>
        rw [List.mem_singleton.mp hy] at hle
        have hknown := hgood.known.resolve_left (h ▸ hepoch)
        rw [h] at hknown
        exact absurd (hle.trans hknown) htop.not_ge
      next => cases hy
  ordered := by
    intro before call after hsplit hcall hlow y hy hvalid hstart hlt
    rw [publish_log] at hy
    rcases List.mem_append.mp hy with hy | hy
    · exact hgood.ordered before call after hsplit hcall hlow y hy hvalid
        hstart hlt
    · split at hy
      next h =>
        have hmem : call ∈ s.calls :=
          hsplit ▸ List.mem_append_right _ List.mem_cons_self
        have hepoch' : call.epoch = server.epoch := hcall.trans h
        obtain ⟨z, hz, hp⟩ :=
          (hgood.calls call hmem).resolve_left (hepoch' ▸ hepoch)
        have hle := offset_le_top (hlogs.sorted _) hz
        rw [← hlogs.offset _ z hz _ hp, hepoch'] at hle
        rw [List.mem_singleton.mp hy] at hlt
        exact absurd (hlt.le.trans hle) htop.not_ge
      next => cases hy

/-- A connection is no further than before. -/
theorem Phase.publish {connection : Connection Json}
    (hphase : Phase codec server.log s connection) :
    Phase codec (server.publish x).log s connection := by
  cases hphase with
  | asking hcursor hall hrequested =>
      exact .asking hcursor hall hrequested
  | @answered stop before after body old new requested subscribed hcursor
      hsplit hbefore hafter hlog hpending hrequested hbody hanswers hcalls =>
      have hmore := publish_log server x connection.epoch
      rw [hlog, List.append_assoc] at hmore
      refine .answered hcursor hsplit hbefore ?_ hmore hpending hrequested
        hbody hanswers hcalls
      rw [publish_log]
      exact hafter.grow _
  | @reading k stop hcursor hk hqueued hrequested hnamed hpassed =>
      refine .reading (k := k) hcursor ?_ ?_ hrequested hnamed ?_
      · rw [publish_log, List.length_append]
        exact hk.trans (Nat.le_add_right _ _)
      · rw [publish_log]
        exact hqueued.grow _
      · rw [publish_log, List.take_append_of_le_length hk]
        exact hpassed

end Publish

-- ================================== listener

/-- What holds of a listener and its stream at any time. -/
structure System.Inv (codec : Codec Json Donation)
    (s : System Json Donation) : Prop where
  logs : Logs codec s.server.log
  channel : s.session.channel ≠ ""
  good : Good codec s.server.log s.session
  phase : ∀ connection, s.stage = .session connection →
    s.session.Once ∧ Phase codec s.server.log s.session connection

section Listener

variable {s t : System Json Donation}

theorem inv_init (userID : String) :
    (System.init userID : System Json Donation).Inv codec where
  logs := ⟨fun _ => List.Pairwise.nil, fun _ _ hx => (by cases hx),
    fun _ _ hx => (by cases hx), rfl⟩
  channel := donationChannel_ne userID
  good :=
    { stream := rfl
      known := .inl rfl
      calls := fun _ hcall => (by cases hcall)
      covered := fun _ hx => (by cases hx)
      ordered := justified_nil }
  phase := fun _ hstage => (by cases hstage)

/-- A state without a session. -/
theorem inv_rest (hlogs : Logs codec s.server.log)
    (hchannel : s.session.channel ≠ "")
    (hgood : Good codec s.server.log s.session)
    (hstage : ∀ connection, s.stage ≠ .session connection) : s.Inv codec :=
  ⟨hlogs, hchannel, hgood,
    fun connection heq => absurd heq (hstage connection)⟩

theorem finish_stage (error : SessionError) (s : System Json Donation)
    (connection : Connection Json) :
    (s.finish error).stage ≠ .session connection := by
  unfold System.finish
  split <;> simp

/-- One more command that is not about the stream. -/
theorem Phase.command {connection : Connection Json} {kind : CommandKind}
    {log : String → List (Published Json)} {s : Session Json Donation}
    (h : Phase codec log s connection) :
    Phase codec log { s with pending := kind :: s.pending } connection := by
  cases h with
  | asking hcursor hall hrequested =>
      refine .asking hcursor hall fun requested hr => ?_
      obtain ⟨he, hmem⟩ := hrequested requested hr
      exact ⟨he, List.mem_cons_of_mem _ hmem⟩
  | answered hcursor hsplit hbefore hafter hlog hpending hrequested hbody
      hanswers hcalls =>
      exact .answered hcursor hsplit hbefore hafter hlog
        (List.mem_cons_of_mem _ hpending) hrequested hbody hanswers hcalls
  | reading hcursor hk hqueued hrequested hnamed hpassed =>
      exact .reading hcursor hk hqueued hrequested hnamed hpassed

/-- The answer is on its way. -/
theorem Phase.answer {connection : Connection Json} {body : Json}
    {epoch : String} {log : String → List (Published Json)}
    {s : Session Json Donation} {requested : Option StreamPosition}
    {subscribed : SubscriptionResult Json}
    (h : Phase codec log s connection) (hlogs : Logs codec log)
    (hgood : Good codec log s) (hepoch : epoch ≠ "")
    (hrequested : s.requested = some requested)
    (hcursor : connection.cursor = none)
    (hbody : codec.subscription body = some subscribed)
    (hanswers : Answers epoch (log epoch) requested subscribed) :
    Phase codec log s
      { epoch
        cursor := some (log epoch).length
        queue := connection.queue
          ++ [.reply (some .subscribe) none (some body)] } := by
  cases h with
  | asking _ hall hasked =>
      obtain ⟨hrecover, hpending⟩ := hasked requested hrequested
      refine .answered rfl rfl hall (.nil _) (List.append_nil _).symm hpending
        ⟨hrequested, hrecover⟩ hbody hanswers fun call hcall heq => ?_
      obtain ⟨x, hx, hp⟩ :=
        (hgood.calls call hcall).resolve_left (heq ▸ hepoch)
      rw [hlogs.offset _ x hx _ hp]
      rw [heq] at hx
      exact offset_le_top (hlogs.sorted _) hx
  | answered hother =>
      rw [hcursor] at hother
      cases hother
  | reading hother =>
      rw [hcursor] at hother
      cases hother

/-- A further push of the stream. -/
theorem Phase.push {connection : Connection Json} {cursor : Nat}
    {log : String → List (Published Json)} {s : Session Json Donation}
    {x : Published Json} {message : Message Json}
    (h : Phase codec log s connection)
    (hcursor : connection.cursor = some cursor)
    (hx : (log connection.epoch)[cursor]? = some x)
    (hmessage : Pushes codec s.channel x message) :
    Phase codec log s
      { connection.send message with cursor := some (cursor + 1) } := by
  cases h with
  | asking hother =>
      rw [hcursor] at hother
      cases hother
  | answered hstop hsplit hbefore hafter hlog hpending hrequested hbody
      hanswers hcalls =>
      cases hcursor.symm.trans hstop
      refine .answered rfl ?_ hbefore (hafter.snoc_push hx hmessage) hlog
        hpending hrequested hbody hanswers hcalls
      rw [Connection.send, hsplit, List.append_assoc, List.cons_append]
  | reading hstop hk hqueued hrequested hnamed hpassed =>
      cases hcursor.symm.trans hstop
      exact .reading rfl hk (hqueued.snoc_push hx hmessage) hrequested hnamed
        hpassed

/-- A message without publications is sent. -/
theorem Phase.send {connection : Connection Json}
    {log : String → List (Published Json)} {s : Session Json Donation}
    {message : Message Json} (h : Phase codec log s connection)
    (hmessage : Foreign codec s.channel message) :
    Phase codec log s (connection.send message) := by
  cases h with
  | asking hcursor hall hrequested =>
      refine .asking hcursor (fun m hm => ?_) hrequested
      rcases List.mem_append.mp hm with hm | hm
      · exact hall m hm
      · exact List.mem_singleton.mp hm ▸ hmessage
  | answered hcursor hsplit hbefore hafter hlog hpending hrequested hbody
      hanswers hcalls =>
      refine .answered hcursor ?_ hbefore (hafter.snoc_foreign hmessage) hlog
        hpending hrequested hbody hanswers hcalls
      rw [Connection.send, hsplit, List.append_assoc, List.cons_append]
  | reading hcursor hk hqueued hrequested hnamed hpassed =>
      exact .reading hcursor hk (hqueued.snoc_foreign hmessage) hrequested
        hnamed hpassed

/-- Whatever happens next, the invariant holds. -/
theorem System.Inv.step (h : s.Inv codec) (hstep : Step codec s t) :
    t.Inv codec := by
  cases hstep with
  | connect hstage =>
      refine ⟨h.logs, h.channel, h.good.same rfl rfl rfl, ?_⟩
      rintro connection ⟨⟩
      exact ⟨le_rfl, .asking rfl (by simp) fun _ hnone => by cases hnone⟩
  | refused hstage error =>
      exact inv_rest h.logs h.channel h.good (finish_stage error s)
  | @read connection message rest hstage hqueue surroundings =>
      obtain ⟨honce, hphase⟩ := h.phase connection hstage
      cases hr : handle codec surroundings s.session message with
      | mk session error =>
          obtain ⟨hgood, hchannel, hnext⟩ :=
            hphase.read h.logs h.good h.channel honce hqueue hr
          have hne : session.channel ≠ "" := hchannel.symm ▸ h.channel
          cases error with
          | some error =>
              exact inv_rest h.logs hne hgood (finish_stage error _)
          | none =>
              refine ⟨h.logs, hne, hgood, ?_⟩
              rintro _ ⟨⟩
              exact hnext rfl
  | command hstage hkind =>
      refine ⟨h.logs, h.channel, h.good.same rfl rfl rfl, ?_⟩
      intro connection heq
      obtain ⟨honce, hphase⟩ := h.phase connection heq
      refine ⟨?_, hphase.command⟩
      rw [Session.Once, List.count_cons_of_ne]
      · exact honce
      · rcases hkind with rfl | rfl | rfl <;> decide
  | fail hstage error =>
      exact inv_rest h.logs h.channel h.good (finish_stage error s)
  | wait hstage => exact inv_rest h.logs h.channel h.good fun _ => by simp
  | cancel => exact inv_rest h.logs h.channel h.good fun _ => by simp
  | renew hepoch => exact ⟨h.logs, h.channel, h.good, h.phase⟩
  | publish hepoch htop hdocument =>
      exact ⟨h.logs.publish hepoch htop hdocument, h.channel,
        h.good.publish h.logs hepoch htop, fun connection hstage =>
          ⟨(h.phase connection hstage).1,
            (h.phase connection hstage).2.publish⟩⟩
  | @answer connection hstage requested hrequested hepoch hcursor body
      subscribed hbody hanswers =>
      obtain ⟨honce, hphase⟩ := h.phase connection hstage
      refine ⟨h.logs, h.channel, h.good, ?_⟩
      rintro _ ⟨⟩
      exact ⟨honce, hphase.answer h.logs h.good hepoch hrequested hcursor hbody
        hanswers⟩
  | @push connection hstage hepoch cursor hcursor x hx message hmessage =>
      obtain ⟨honce, hphase⟩ := h.phase connection hstage
      refine ⟨h.logs, h.channel, h.good, ?_⟩
      rintro _ ⟨⟩
      exact ⟨honce, hphase.push hcursor (hepoch ▸ hx) hmessage⟩
  | @send connection hstage message hmessage =>
      obtain ⟨honce, hphase⟩ := h.phase connection hstage
      refine ⟨h.logs, h.channel, h.good, ?_⟩
      rintro _ ⟨⟩
      exact ⟨honce, hphase.send hmessage⟩

theorem Reachable.steps {userID : String} (h : Reachable codec userID s)
    (hsteps : Relation.ReflTransGen (Step codec) s t) :
    Reachable codec userID t := by
  induction hsteps with
  | refl => exact h
  | tail _ hstep ih => exact ih.step hstep

theorem Reachable.inv {userID : String} (h : Reachable codec userID s) :
    s.Inv codec := by
  induction h with
  | init => exact inv_init userID
  | step _ hstep ih => exact ih.step hstep

/-- A session that has read all that its stream has. -/
theorem System.Inv.caught_up (h : s.Inv codec) {connection : Connection Json}
    (hstage : s.stage = .session connection)
    (hqueue : connection.queue = [])
    (hcursor : connection.cursor
      = some (s.server.log connection.epoch).length)
    (hepoch : s.session.position.epoch ≠ "") :
    ∀ x ∈ s.server.log connection.epoch, x.Valid codec →
      s.session.start.Owes codec x →
        Emitted codec s.session.calls connection.epoch x := by
  cases (h.phase connection hstage).2 with
  | asking hother =>
      rw [hcursor] at hother
      cases hother
  | answered _ hsplit =>
      rw [hqueue] at hsplit
      exact absurd hsplit.symm (by simp)
  | reading hstop hk hqueued hrequested hnamed hpassed =>
      cases hcursor.symm.trans hstop
      rw [hqueue] at hqueued
      cases hqueued with
      | nil =>
          rw [List.take_length] at hpassed
          exact hpassed hepoch

/-- A call of `emit` without its epoch. -/
def Call.outcome (call : Call Json Donation) :
    SocketPublication Json × Donation × Bool :=
  (call.publication, call.donation, call.accepted)

/-- The call of `emit` that has taken the donation of a publication. -/
def SocketPublication.taken (codec : Codec Json Donation)
    (publication : SocketPublication Json) :
    Option (SocketPublication Json × Donation × Bool) :=
  (publication.data.bind codec.donation).map fun donation =>
    (publication, donation, true)

/-- A list that is handled to its end has passed on each donation, in the
order of the list. -/
theorem pass_taken {s t : Session Json Donation}
    {publications : List (SocketPublication Json)}
    (h : pass (emitPublication codec emit) s publications = (t, none)) :
    t.calls.map (·.outcome) = s.calls.map (·.outcome)
      ++ publications.filterMap (·.taken codec) := by
  induction publications generalizing s with
  | nil =>
      cases h
      exact (List.append_nil _).symm
  | cons publication rest ih =>
      have hcases := emit_cases codec emit s publication
      cases hx : emitPublication codec emit s publication with
      | mk u first =>
          rw [hx] at hcases
          cases hcases with
          | missing =>
              rw [pass_cons_error hx] at h
              cases h
          | invalid hdata hdonation =>
              rw [pass_cons_ok hx] at h
              have hnone : publication.taken codec = none := by
                simp only [SocketPublication.taken, hdata,
                  Option.bind_some, hdonation, Option.map_none]
              rw [ih h, advance_calls, List.filterMap_cons_none hnone]
          | @accepted data donation hdata hdonation =>
              rw [pass_cons_ok hx] at h
              have hsome : publication.taken codec
                  = some (publication, donation, true) := by
                simp only [SocketPublication.taken, hdata,
                  Option.bind_some, hdonation, Option.map_some]
              rw [ih h, advance_calls, List.filterMap_cons_some hsome,
                Session.call, List.map_append, List.append_assoc]
              rfl
          | refused =>
              rw [pass_cons_error hx] at h
              cases h

/-- A list does not move the start. -/
theorem pass_start {s t : Session Json Donation}
    {publications : List (SocketPublication Json)}
    (h : pass (emitPublication codec emit) s publications = (t, none)) :
    t.start = s.start := by
  refine pass_ok (I := fun _ u => u.start = s.start) rfl ?_ h
  intro done publication rest u v _ hu hv
  have hcases := emit_cases codec emit u publication
  rw [hv] at hcases
  cases hcases with
  | invalid => exact advance_start.trans hu
  | accepted => exact advance_start.trans hu

/-- What a reply has done that was handled to its end, recovered or not:
the donations of its publications were passed on, oldest first, and the
position is its own. -/
structure Session.Listed (codec : Codec Json Donation)
    (subscribed : SubscriptionResult Json) (s t : Session Json Donation)
    (publications : List (SocketPublication Json)) : Prop where
  decoded : subscribed.publications.mapM codec.publication
    = some publications
  calls : t.calls.map (·.outcome) = s.calls.map (·.outcome)
    ++ publications.reverse.filterMap (·.taken codec)
  position : t.position = subscribed.baseline
  start : t.start = if s.position.valid ∧ subscribed.recovered then s.start
    else
      { position := subscribed.baseline
        listed := publications.reverse
        calls := s.calls.length }

/-- A subscribe reply has had all it lists emitted. -/
theorem handle_listed {s t : Session Json Donation}
    {surroundings : Surroundings Donation} {body : Json}
    {subscribed : SubscriptionResult Json}
    (hpending : .subscribe ∈ s.pending)
    (hbody : codec.subscription body = some subscribed)
    (h : handle codec surroundings s
      (.reply (some .subscribe) none (some body)) = (t, none)) :
    ∃ publications, s.Listed codec subscribed t publications := by
  unfold handle at h
  simp only [hpending, not_true_eq_false, if_false, withResult, hbody] at h
  unfold handleSubscribed at h
  cases hdecoded : subscribed.publications.mapM codec.publication with
  | none =>
      simp only [hdecoded] at h
      cases h
  | some publications =>
      simp only [hdecoded] at h
      split_ifs at h with hmissing hfails
      · cases h
      · cases h
      · generalize hr : Session.resume subscribed publications.reverse _ = r
          at h
        have hresumed : r.calls = s.calls ∧ r.start
            = if s.position.valid ∧ subscribed.recovered then s.start
              else
                { position := subscribed.baseline
                  listed := publications.reverse
                  calls := s.calls.length } := by
          rw [← hr]
          unfold Session.resume
          split
          case isTrue hcase => exact ⟨rfl, (if_pos hcase).symm⟩
          case isFalse hcase => exact ⟨rfl, (if_neg hcase).symm⟩
        cases hpass : pass (emitPublication codec surroundings.emit) r
            publications.reverse with
        | mk u error =>
            rw [hpass] at h
            cases error with
            | some e => cases h
            | none =>
                cases h
                have htaken := pass_taken hpass
                rw [hresumed.1] at htaken
                refine ⟨publications, hdecoded, htaken, rfl, ?_⟩
                exact (pass_start hpass).trans hresumed.2

/-- A publication of the channel with a donation. -/
def samplePublished (sequence : UInt32) (donation : Nat) :
    Published Sample :=
  { sequence
    generation := 0
    document := .publication sequence (some (.donation donation)) }

/-- A reply at a sequence of the epoch "e". -/
def sampleReply (sequence : UInt32) (recovered : Bool)
    (listed : List (Published Sample)) : SubscriptionResult Sample :=
  { recoverable := true
    recovered
    epoch := "e"
    sequence
    generation := 0
    publications := listed.map (·.document) }

/-- A session that has asked for its channel, as its reply is read. -/
def sampleAsked (s : Session Sample Nat) : Session Sample Nat :=
  { s.next with
    socketClientID := "c"
    pending := []
    requested := some s.recoverFrom }

theorem step_read {codec : Codec Json Donation} {s t : System Json Donation}
    {connection : Connection Json} {message : Message Json}
    {rest : List (Message Json)} (hstage : s.stage = .session connection)
    (hqueue : connection.queue = message :: rest)
    (surroundings : Surroundings Donation)
    (h : s.after { connection with queue := rest }
      (handle codec surroundings s.session message) = t) :
    Step codec s t := h ▸ .read hstage hqueue surroundings

/-- A session that asks for its channel, and what its reply makes of
it. -/
theorem sample_subscribes (s : System Sample Nat)
    {subscribed : SubscriptionResult Sample} {u : Session Sample Nat}
    (hstage : s.stage = .connecting) (hepoch : s.server.epoch = "e")
    (hanswers : Answers "e" (s.server.log "e") s.session.recoverFrom
      subscribed)
    (hhandled : handleSubscribed sampleCodec (fun _ _ => true)
      (sampleAsked s.session) subscribed = (u, none)) :
    Relation.ReflTransGen (Step sampleCodec) s
      { server := s.server
        stage := .session
          { epoch := "e", cursor := some (s.server.log "e").length }
        session := u } := by
  let surroundings : Surroundings Nat := { emit := fun _ _ => true }
  let asked : Session Sample Nat :=
    { sampleAsked s.session with pending := [.subscribe] }
  have hgreeting : Foreign sampleCodec s.session.next.channel
      (.reply (some .connect) none (some .connected)) :=
    fun hkind => by cases hkind
  have hconnect : Step sampleCodec s
      { s with stage := .session {}, session := s.session.next } :=
    .connect hstage
  have hsent := (Relation.ReflTransGen.single hconnect).tail
    (.send rfl hgreeting)
  have hasking : Relation.ReflTransGen (Step sampleCodec) s
      { s with stage := .session {}, session := asked } :=
    hsent.tail (step_read rfl rfl surroundings rfl)
  have hbody : sampleCodec.subscription (.subscribed subscribed)
      = some subscribed := rfl
  have hanswered := hasking.tail
    (.answer rfl rfl (hepoch ▸ by decide) rfl hbody
      (by rw [hepoch]; exact hanswers))
  have hread : handle sampleCodec surroundings asked
      (.reply (some .subscribe) none (some (.subscribed subscribed)))
      = (u, none) := hhandled
  have hdone := hanswered.tail (step_read rfl rfl surroundings
    (congrArg (fun r => System.after _ r _) hread))
  rw [hepoch] at hdone
  exact hdone

/-- A publication that comes while the connection is lost, and the session
that asks for its channel again. -/
theorem sample_returns (s : System Sample Nat) (x : Published Sample)
    {connection : Connection Sample}
    {subscribed : SubscriptionResult Sample} {u : Session Sample Nat}
    (hstage : s.stage = .session connection) (hepoch : s.server.epoch = "e")
    (htop : top (s.server.log "e") < x.offset)
    (hdocument : ∀ publication,
      sampleCodec.publication x.document = some publication →
        publication.sequence = x.sequence
          ∧ publication.generation = x.generation)
    (hanswers : Answers "e" (s.server.log "e" ++ [x])
      s.session.recoverFrom subscribed)
    (hhandled : handleSubscribed sampleCodec (fun _ _ => true)
      (sampleAsked s.session) subscribed = (u, none)) :
    Relation.ReflTransGen (Step sampleCodec) s
      { server := s.server.publish x
        stage := .session
          { epoch := "e", cursor := some (s.server.log "e" ++ [x]).length }
        session := u } := by
  let lost (stage : Stage Sample) : System Sample Nat :=
    { s with server := s.server.publish x, stage }
  have hlog : (s.server.publish x).log "e" = s.server.log "e" ++ [x] := by
    rw [publish_log, hepoch, if_pos rfl]
  have hpublish : Step sampleCodec s (lost s.stage) :=
    .publish (hepoch ▸ by decide) (hepoch ▸ htop) hdocument
  have hlost : Step sampleCodec (lost s.stage) (lost .waiting) :=
    .fail (s := lost s.stage) hstage .read
  have hwait : Step sampleCodec (lost .waiting) (lost .connecting) :=
    .wait rfl
  have hsubscribes := sample_subscribes (lost .connecting) rfl hepoch
    (hlog.symm ▸ hanswers) hhandled
  rw [show (lost .connecting).server.log "e" = s.server.log "e" ++ [x]
    from hlog] at hsubscribes
  exact (((Relation.ReflTransGen.single hpublish).tail hlost).tail
    hwait).trans hsubscribes

/-- The session of a listener at its first subscription. -/
def sampleSubscribed : Session Sample Nat :=
  { channel := donationChannel "7"
    socketClientID := "c"
    requested := some none
    result := { subscribed := true, position := ⟨"e", 0, 0, true⟩ }
    start := { position := ⟨"e", 0, 0, true⟩ } }

/-- A listener at its first subscription. -/
def sampleListener : System Sample Nat :=
  { server := { epoch := "e" }
    stage := .session { epoch := "e", cursor := some 0 }
    session := sampleSubscribed }

theorem sample_listens : Reachable sampleCodec "7" sampleListener := by
  let named : System Sample Nat :=
    { (System.init "7" : System Sample Nat) with server := { epoch := "e" } }
  have h0 : Reachable sampleCodec "7" named :=
    .step .init (.renew _ (by decide))
  have hanswers : Answers "e" [] none (sampleReply 0 false []) :=
    ⟨rfl, fun _ => offset_zero, fun _ hd => (by cases hd),
      fun _ hnone => by cases hnone⟩
  exact h0.steps (sample_subscribes named rfl rfl hanswers rfl)

/-- The session of the listener after its first push. -/
def samplePushed : Session Sample Nat :=
  advancePosition ⟨1, 0, some (.donation 5)⟩
    (sampleSubscribed.call ⟨1, 0, some (.donation 5)⟩ 5 true)

/-- The session after a reply that recovers the second publication. -/
def sampleRecovered : Session Sample Nat :=
  (handleSubscribed sampleCodec (fun _ _ => true) (sampleAsked samplePushed)
    (sampleReply 2 true [samplePublished 2 6])).1

/-- The session after a reply that does not recover, and lists the third
publication. -/
def sampleRestarted : Session Sample Nat :=
  (handleSubscribed sampleCodec (fun _ _ => true)
    (sampleAsked sampleRecovered)
    (sampleReply 3 false [samplePublished 3 7])).1

/-- A server with one publication. -/
def sampleServer : Server Sample :=
  (Server.publish (samplePublished 1 5) { epoch := "e" })

/-- The listener after its first push. -/
theorem sample_pushed :
    Relation.ReflTransGen (Step sampleCodec) sampleListener
      { server := sampleServer
        stage := .session { epoch := "e", cursor := some 1 }
        session := samplePushed } := by
  let push : SocketPush Sample :=
    { channel := donationChannel "7"
      data := some (samplePublished 1 5).document }
  let published : System Sample Nat :=
    { sampleListener with server := sampleServer }
  let pushed : System Sample Nat :=
    { published with
      stage := .session
        { epoch := "e", cursor := some 1
          queue := [.push (some (.push push))] } }
  have hpublish : Step sampleCodec sampleListener published := by
    refine .publish (by decide) (by decide) ?_
    rintro publication ⟨⟩
    exact ⟨rfl, rfl⟩
  have hpush : Step sampleCodec published pushed :=
    .push (s := published) (x := samplePublished 1 5) rfl rfl rfl rfl
      ⟨.push push, push, rfl, rfl, rfl, rfl, rfl⟩
  have hhandled : handle sampleCodec { emit := fun _ _ => true }
      sampleSubscribed (.push (some (.push push)))
        = (samplePushed, none) := by
    show handlePush sampleCodec (fun _ _ => true) sampleSubscribed push = _
    rw [push_own rfl rfl (donationChannel_ne "7")]
    rfl
  have hread : Step sampleCodec pushed
      { pushed with
        stage := .session { epoch := "e", cursor := some 1 }
        session := samplePushed } :=
    step_read (s := pushed) rfl rfl { emit := fun _ _ => true }
      (congrArg (fun r => pushed.after { epoch := "e", cursor := some 1 } r)
        hhandled)
  exact ((Relation.ReflTransGen.single hpublish).tail hpush).tail hread

/-- The listener after its connection was lost and recovered. -/
theorem sample_recovered :
    Relation.ReflTransGen (Step sampleCodec)
      { server := sampleServer
        stage := .session { epoch := "e", cursor := some 1 }
        session := samplePushed }
      { server := sampleServer.publish (samplePublished 2 6)
        stage := .session { epoch := "e", cursor := some 2 }
        session := sampleRecovered } := by
  have hanswers : Answers "e" [samplePublished 1 5, samplePublished 2 6]
      (some ⟨"e", 1, 0, true⟩) (sampleReply 2 true [samplePublished 2 6]) :=
    ⟨rfl, fun _ => rfl, fun d hd => List.mem_cons_of_mem _ hd, by
      rintro position ⟨⟩ -
      exact ⟨rfl, rfl, rfl⟩⟩
  have hdocument : ∀ publication, sampleCodec.publication
      (samplePublished 2 6).document = some publication →
        publication.sequence = 2 ∧ publication.generation = 0 := by
    rintro publication ⟨⟩
    exact ⟨rfl, rfl⟩
  exact sample_returns _ (samplePublished 2 6) rfl rfl (by decide) hdocument
    hanswers rfl

/-- The listener after its connection was lost again, and not
recovered. -/
theorem sample_restarted :
    Relation.ReflTransGen (Step sampleCodec)
      { server := sampleServer.publish (samplePublished 2 6)
        stage := .session { epoch := "e", cursor := some 2 }
        session := sampleRecovered }
      { server := (sampleServer.publish (samplePublished 2 6)).publish
          (samplePublished 3 7)
        stage := .session { epoch := "e", cursor := some 3 }
        session := sampleRestarted } := by
  have hanswers : Answers "e" [samplePublished 1 5, samplePublished 2 6,
      samplePublished 3 7] (some ⟨"e", 2, 0, true⟩)
        (sampleReply 3 false [samplePublished 3 7]) :=
    ⟨rfl, fun _ => rfl,
      fun d hd => List.mem_cons_of_mem _ (List.mem_cons_of_mem _ hd),
      fun _ _ hrecovered => by cases hrecovered⟩
  have hdocument : ∀ publication, sampleCodec.publication
      (samplePublished 3 7).document = some publication →
        publication.sequence = 3 ∧ publication.generation = 0 := by
    rintro publication ⟨⟩
    exact ⟨rfl, rfl⟩
  exact sample_returns _ (samplePublished 3 7) rfl rfl (by decide) hdocument
    hanswers rfl

end Listener

end StreamBrew.DonationAlerts.Socket
