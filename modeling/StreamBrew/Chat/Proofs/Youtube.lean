/-
Reading a YouTube chat in sessions leaves nothing out, and where each
response carries a token it reads nothing twice.

A session that is opened with a token goes on at the place of the token,
which is not behind what was read (`Inv.token`): so the sessions together
cover the chat from where the last session without a token began. What a
session without a token leaves behind, none goes back to. If every
response carries a token, the place of a token is where reading stopped
(`Exact.token`), and the messages are those of the chat, in order.
-/
import StreamBrew.Chat.Youtube

namespace StreamBrew.Chat.Youtube

open Feed (slice)

variable {source : StreamSource} {c c' : Collector} {s : System}

-- =================================== sending

theorem pending_append (before after : List Out) :
    pending (before ++ after) = pending before ++ pending after :=
  List.filterMap_append

theorem messages_append (before after : List StreamEvent) :
    messages (before ++ after) = messages before ++ messages after :=
  List.filterMap_append

/-- What is pushed is sent last. -/
theorem sent_push (out : List Out) (c : Collector) :
    sent (c.push out) = sent c ++ messages (pending out) := by
  unfold sent Collector.push
  rw [pending_append, messages_append, List.append_assoc]

theorem sent_setState (state : String) (c : Collector) :
    sent (c.setState source state) = sent c := by
  unfold Collector.setState
  rw [sent_push]
  exact List.append_nil _

theorem sent_failure (type detail : String) (c : Collector) :
    sent (c.push [.failure type detail]) = sent c := by
  rw [sent_push]
  exact List.append_nil _

theorem pending_messages (l : List Message) :
    messages (pending (l.map fun m => .event (StreamEvent.ofMessage m)))
      = l := by
  unfold messages pending
  rw [List.filterMap_map, List.filterMap_filterMap]
  exact List.filterMap_some

/-- A send moves a message from what waits to what was taken. -/
theorem sent_send (c : Collector) : sent c.send = sent c := by
  unfold Collector.send
  split
  case h_1 => rfl
  case h_2 e rest houtbox =>
    have hpending : pending c.outbox = e :: pending rest := by
      rw [houtbox]
      rfl
    unfold sent
    rw [hpending, messages_append, List.append_assoc, ← messages_append]
    rfl
  case h_3 type detail rest houtbox =>
    have hpending : pending c.outbox = pending rest := by
      rw [houtbox]
      rfl
    unfold sent
    rw [hpending]

/-- What is given up is left out. -/
theorem sent_give {out : Out} {rest : List Out} (h : c.outbox = out :: rest) :
    (sent { c with outbox := rest }).Sublist (sent c) := by
  unfold sent
  rw [h]
  refine List.Sublist.append_left (List.Sublist.filterMap _ ?_) _
  exact (List.sublist_cons_self out rest).filterMap _

-- ========================== what calls leave

/-- The chat of a broadcast is not yet known. -/
def Stage.early : Stage → Bool
  | .idle | .discovering | .retrying => true
  | _ => false

/-- What a step leaves that reads nothing. -/
structure Quiet (c c' : Collector) : Prop where
  token : c'.pageToken = c.pageToken
  cancelled : c'.cancelled = c.cancelled
  sent : sent c' = sent c
  early : c'.stage.early = true → c.stage.early = true

theorem Quiet.refl (c : Collector) : Quiet c c := ⟨rfl, rfl, rfl, id⟩

theorem quiet_check (c : Collector) : Quiet c (c.check source) := by
  unfold Collector.check
  split
  case h_1 hstage => exact ⟨rfl, rfl, rfl, fun _ => by rw [hstage]; rfl⟩
  case h_2 =>
    split
    case isTrue => exact ⟨rfl, rfl, rfl, fun h => by cases h⟩
    case isFalse =>
      exact ⟨rfl, rfl, sent_setState "live" c, fun h => by cases h⟩
  case h_3 =>
    refine ⟨rfl, rfl, rfl, fun h => ?_⟩
    by_cases hcancelled : c.cancelled = true
    · rw [if_pos hcancelled] at h
      cases h
    · rw [if_neg hcancelled] at h
      cases h
  case h_4 => exact .refl c

theorem quiet_handle (cause : Failure) (c : Collector) :
    Quiet c (c.handle source cause) := by
  unfold Collector.handle
  split
  case isTrue => exact ⟨rfl, rfl, rfl, fun h => by cases h⟩
  case isFalse =>
    split
    case h_1 =>
      exact ⟨rfl, rfl, sent_setState "offline" c, fun h => by cases h⟩
    case h_2 type _ =>
      refine ⟨rfl, rfl, sent_failure type _ c, fun h => ?_⟩
      by_cases hfinal : type = unauthorized ∨ type = rejectedCommand
      · rw [if_pos hfinal] at h
        cases h
      · rw [if_neg hfinal] at h
        cases h

theorem quiet_close (cause failure : Option Failure) (c : Collector) :
    Quiet c (c.close source cause failure) := by
  unfold Collector.close
  split
  case isTrue => exact ⟨rfl, rfl, rfl, fun h => by cases h⟩
  case isFalse =>
    split
    case h_1 => exact ⟨rfl, rfl, rfl, fun h => by cases h⟩
    case h_2 cause _ => exact quiet_handle cause c

theorem quiet_opened (failure : Option Failure) (c : Collector) :
    Quiet c (c.opened source failure) := by
  unfold Collector.opened
  cases failure with
  | none => exact ⟨rfl, rfl, rfl, fun h => by cases h⟩
  | some cause =>
      have h : Quiet { c with log := c.log ++ [.opened c.pageToken] }
          (Collector.handle source cause
            { c with log := c.log ++ [.opened c.pageToken] }) :=
        quiet_handle cause _
      exact ⟨h.token, h.cancelled, h.sent, h.early⟩

theorem quiet_waited (elapsed : Bool)
    (hstage : c.stage = .retrying ∨ c.stage = .pausing) :
    Quiet c (c.waited source elapsed) := by
  unfold Collector.waited
  cases elapsed with
  | false => exact ⟨rfl, rfl, rfl, fun h => by cases h⟩
  | true =>
      refine ⟨rfl, rfl, ?_, fun h => ?_⟩
      · exact sent_setState "connecting" c
      · rcases hstage with hretrying | hpausing
        · rw [hretrying]
          rfl
        · simp only [if_true, hpausing] at h
          cases h

/-- Nothing was read before the chat is known. -/
theorem quiet_discovered (result : Except ProviderError String)
    (hstage : c.stage = .discovering) (htoken : c.pageToken = "") :
    Quiet c (c.discovered source result) := by
  unfold Collector.discovered
  split
  case h_1 e =>
    refine ⟨rfl, rfl, sent_failure _ _ c, fun _ => ?_⟩
    rw [hstage]
    rfl
  case h_2 liveChatID =>
    split
    case isTrue =>
      exact ⟨rfl, rfl, sent_setState "offline" c, fun h => by cases h⟩
    case isFalse =>
      exact ⟨htoken.symm, rfl, sent_setState "connecting" c,
        fun h => by cases h⟩

/-- What a response leaves. -/
theorem received_spec (source : StreamSource) (response : Response)
    (c : Collector) :
    (c.received source response).pageToken
        = (if response.nextPageToken ≠ "" then response.nextPageToken
          else c.pageToken)
      ∧ (c.received source response).cancelled = c.cancelled
      ∧ sent (c.received source response) = sent c
        ++ response.items.filterMap (youtubeMessage source)
      ∧ (c.received source response).stage.early = false := by
  let read : Collector := Collector.push
    ((response.items.filterMap (youtubeMessage source)).map
      fun message => .event (StreamEvent.ofMessage message))
    { c with
      retry := retryStart
      pageToken := if response.nextPageToken ≠ "" then response.nextPageToken
        else c.pageToken
      log := c.log ++ [.received response.nextPageToken] }
  have hread : sent read = sent c
      ++ response.items.filterMap (youtubeMessage source) := by
    refine (sent_push _ _).trans ?_
    rw [pending_messages]
    rfl
  unfold Collector.received
  simp only
  split
  case isTrue =>
    exact ⟨rfl, rfl, (sent_setState "offline" read).trans hread, rfl⟩
  case isFalse => exact ⟨rfl, rfl, hread, rfl⟩

-- ===================================== moves

/-- What a step does to the server and to what was read. -/
inductive Moves (source : StreamSource) (s : System) :
    Action → System → Prop
  | quiet {a : Action} {c' : Collector} (h : Quiet s.collector c') :
      Moves source s a { s with collector := c' }
  | enter {a : Action} {c' : Collector} {start : Nat}
      (hstart : start ≤ s.timeline.length) (h : Quiet s.collector c') :
      Moves source s a { s.enter start with collector := c' }
  | received {stop : Nat} {nextPageToken offlineAt : String}
      (hfits : s.Fits stop nextPageToken) :
      Moves source s (.received stop nextPageToken offlineAt)
        { s with
          issued := if nextPageToken = "" then s.issued
            else (nextPageToken, stop) :: s.issued
          position := stop
          collector := s.collector.received source
            { nextPageToken
              items := slice s.timeline s.position stop
              offlineAt } }
  | append {item : Option LiveChatMessage} :
      Moves source s (.append item) { s with timeline := s.timeline ++ [item] }
  | give {out : Out} {rest : List Out}
      (houtbox : s.collector.outbox = out :: rest)
      (hcancelled : s.collector.cancelled = true) :
      Moves source s .give
        { s with collector := { s.collector with outbox := rest } }
  | cancel : Moves source s .cancel
      { s with collector := { s.collector with cancelled := true } }

theorem Moves.refl (a : Action) : Moves source s a s :=
  .quiet (.refl s.collector)

/-- A step of the collector is one of these moves. -/
theorem proceed_moves
    (hearly : s.collector.stage.early = true → s.collector.pageToken = "")
    (a : Action) : Moves source s a (s.proceed source a) := by
  cases a with
  | check => exact .quiet (quiet_check s.collector)
  | discovered result =>
      simp only [System.proceed]
      split
      case isFalse => exact .refl _
      case isTrue hstage =>
        refine .quiet (quiet_discovered result hstage (hearly ?_))
        rw [hstage]
        rfl
  | opened failure start =>
      simp only [System.proceed]
      split
      case isFalse => exact .refl _
      case isTrue hopening =>
        have hquiet : Quiet s.collector (s.collector.opened source failure) :=
          quiet_opened failure s.collector
        cases failure with
        | none => exact .enter hopening.2 hquiet
        | some cause => exact .quiet hquiet
  | received stop nextPageToken offlineAt =>
      simp only [System.proceed]
      split
      case isFalse => exact .refl _
      case isTrue hreceiving => exact .received hreceiving.2
  | broken cause =>
      simp only [System.proceed]
      split
      case isFalse => exact .refl _
      case isTrue => exact .quiet ⟨rfl, rfl, rfl, fun h => by cases h⟩
  | closed failure =>
      simp only [System.proceed]
      split
      case h_1 cause _ => exact .quiet (quiet_close cause failure s.collector)
      case h_2 => exact .refl _
  | waited elapsed =>
      simp only [System.proceed]
      split
      case isFalse => exact .refl _
      case isTrue hwaiting => exact .quiet (quiet_waited elapsed hwaiting.1)
  | give =>
      simp only [System.proceed]
      split
      case isFalse => exact .refl _
      case isTrue => exact .quiet ⟨rfl, rfl, rfl, fun h => by cases h⟩
  | append item => exact .refl _
  | send => exact .refl _
  | cancel => exact .refl _

/-- So is every other step. -/
theorem step_moves
    (hearly : s.collector.stage.early = true → s.collector.pageToken = "")
    (a : Action) : Moves source s a (s.step source a) := by
  unfold System.step
  split
  case h_1 => exact .append
  case h_2 => exact .cancel
  case h_3 =>
    refine .quiet ⟨?_, ?_, sent_send s.collector, fun h => ?_⟩
    all_goals unfold Collector.send at *
    · split <;> rfl
    · split <;> rfl
    · revert h
      split <;> exact id
  case h_4 =>
    split
    case h_1 => exact proceed_moves hearly _
    case h_2 out rest houtbox =>
      split
      case h_1 =>
        split
        case isTrue hcancelled => exact .give houtbox hcancelled
        case isFalse => exact .refl _
      case h_2 => exact .refl _

-- ============================== nothing lost

/-- What was shown to the sessions is what has been sent, or more. -/
structure Inv (source : StreamSource) (s : System) : Prop where
  early : s.collector.stage.early = true → s.collector.pageToken = ""
  low : s.start ≤ s.position
  high : s.position ≤ s.timeline.length
  named : s.issued.lookup "" = none
  token : s.collector.pageToken ≠ "" → ∃ place,
    s.issued.lookup s.collector.pageToken = some place
      ∧ s.start ≤ place ∧ place ≤ s.position
  covered : s.collector.cancelled = false →
    ∀ m ∈ shown source s, m ∈ sent s.collector
  sound : ∀ m ∈ sent s.collector, ∃ item ∈ s.timeline,
    youtubeMessage source item = some m

/-- Where a session is opened. -/
theorem Inv.enter (h : Inv source s) (start : Nat) :
    (s.collector.pageToken = ""
        ∧ s.enter start = { s with start, position := start })
      ∨ ∃ place, s.issued.lookup s.collector.pageToken = some place
        ∧ s.start ≤ place ∧ place ≤ s.position
        ∧ s.enter start = { s with position := place } := by
  unfold System.enter
  by_cases htoken : s.collector.pageToken = ""
  · rw [htoken, h.named]
    exact Or.inl ⟨rfl, rfl⟩
  · obtain ⟨place, hplace, hlow, hhigh⟩ := h.token htoken
    rw [hplace]
    exact Or.inr ⟨place, rfl, hlow, hhigh, rfl⟩

/-- A token that is carried stands for the place that it is carried to,
and no other is forgotten. -/
theorem lookup_issued {stop place : Nat} {nextPageToken token : String}
    (hfits : s.Fits stop nextPageToken)
    (h : s.issued.lookup token = some place) :
    (if nextPageToken = "" then s.issued
      else (nextPageToken, stop) :: s.issued).lookup token = some place := by
  split
  case isTrue => exact h
  case isFalse =>
    rw [List.lookup_cons]
    by_cases htoken : token = nextPageToken
    · subst htoken
      rw [beq_self_eq_true]
      exact congrArg some (hfits.2.2 place h).symm
    · rw [beq_false_of_ne htoken]
      exact h

/-- Every move keeps what was read in order. -/
theorem Inv.moves {a : Action} {s' : System} (h : Inv source s)
    (hmoves : Moves source s a s') : Inv source s' := by
  cases hmoves with
  | quiet hquiet =>
      refine ⟨fun he => ?_, h.low, h.high, h.named, fun ht => ?_, fun hc => ?_,
        hquiet.sent ▸ h.sound⟩
      · rw [hquiet.token]
        exact h.early (hquiet.early he)
      · rw [hquiet.token] at ht ⊢
        exact h.token ht
      · rw [hquiet.cancelled] at hc
        rw [hquiet.sent]
        exact h.covered hc
  | enter hstart hquiet =>
      rename_i c' start
      have hearly : c'.stage.early = true → c'.pageToken = "" := by
        intro he
        rw [hquiet.token]
        exact h.early (hquiet.early he)
      rcases h.enter start with ⟨htoken, he⟩ | ⟨place, hplace, hlow, hhigh, he⟩
      · rw [he]
        refine ⟨hearly, Nat.le_refl _, hstart, h.named, fun ht => ?_,
          fun _ m hm => ?_, hquiet.sent ▸ h.sound⟩
        · exact absurd (hquiet.token.trans htoken) ht
        · rw [shown, Feed.slice_of_le (Nat.le_refl _)] at hm
          cases hm
      · rw [he]
        refine ⟨hearly, hlow, Nat.le_trans hhigh h.high, h.named, fun ht => ?_,
          fun hc m hm => ?_, hquiet.sent ▸ h.sound⟩
        · rw [hquiet.token]
          exact ⟨place, hplace, hlow, Nat.le_refl _⟩
        · rw [hquiet.cancelled] at hc
          rw [hquiet.sent]
          refine h.covered hc m ?_
          rw [shown, ← Feed.slice_append hlow hhigh, List.filterMap_append]
          exact List.mem_append_left _ hm
  | received hfits =>
      rename_i stop nextPageToken offlineAt
      obtain ⟨htoken, hcancelled, hsent, hlate⟩ := received_spec source
        ⟨nextPageToken, slice s.timeline s.position stop, offlineAt⟩ s.collector
      have hlow := Nat.le_trans h.low hfits.1
      refine ⟨fun he => ?_, hlow, hfits.2.1, ?_, fun ht => ?_,
        fun hc m hm => ?_, fun m hm => ?_⟩
      · rw [hlate] at he
        cases he
      · split
        case isTrue => exact h.named
        case isFalse hne =>
          rw [List.lookup_cons, beq_false_of_ne (Ne.symm hne)]
          exact h.named
      · rw [htoken] at ht ⊢
        by_cases hnext : nextPageToken = ""
        · rw [if_neg (not_not_intro hnext)] at ht ⊢
          obtain ⟨place, hplace, hfrom, hto⟩ := h.token ht
          exact ⟨place, lookup_issued hfits hplace, hfrom,
            Nat.le_trans hto hfits.1⟩
        · rw [if_pos hnext]
          refine ⟨stop, ?_, hlow, Nat.le_refl _⟩
          rw [if_neg hnext, List.lookup_cons, beq_self_eq_true]
      · rw [hcancelled] at hc
        rw [hsent]
        rw [shown, ← Feed.slice_append h.low hfits.1,
          List.filterMap_append] at hm
        exact (List.mem_append.mp hm).elim
          (fun hm => List.mem_append_left _ (h.covered hc m hm))
          (List.mem_append_right _)
      · rw [hsent] at hm
        rcases List.mem_append.mp hm with hm | hm
        · exact h.sound m hm
        · obtain ⟨item, hitem, hmessage⟩ := List.mem_filterMap.mp hm
          obtain ⟨i, hi, -, -, rfl⟩ := Feed.mem_slice.mp hitem
          exact ⟨_, List.getElem_mem hi, hmessage⟩
  | append =>
      refine ⟨h.early, h.low, ?_, h.named, h.token, fun hc m hm => ?_,
        fun m hm => ?_⟩
      · rw [List.length_append]
        exact Nat.le_add_right_of_le h.high
      · rw [shown, Feed.slice_grow _ h.high] at hm
        exact h.covered hc m hm
      · obtain ⟨item, hitem, hmessage⟩ := h.sound m hm
        exact ⟨item, List.mem_append_left _ hitem, hmessage⟩
  | give houtbox hcancelled =>
      refine ⟨h.early, h.low, h.high, h.named, h.token, fun hc => ?_,
        fun m hm => h.sound m ((sent_give houtbox).subset hm)⟩
      rw [hcancelled] at hc
      cases hc
  | cancel =>
      exact ⟨h.early, h.low, h.high, h.named, h.token, fun hc => (by cases hc),
        h.sound⟩

-- ============================= nothing twice

/-- Where each response carries a token, reading goes on where it stopped,
and what has been sent is what was shown. -/
structure Exact (source : StreamSource) (s : System) : Prop where
  fresh : s.collector.pageToken = "" → sent s.collector = []
  token : s.collector.pageToken ≠ "" →
    s.issued.lookup s.collector.pageToken = some s.position
  order : (sent s.collector).Sublist (shown source s)
  once : s.collector.cancelled = false → sent s.collector = shown source s

/-- With a token in every response, nothing is read twice. -/
theorem Exact.moves {a : Action} {s' : System} (h : Exact source s)
    (hi : Inv source s) (hmoves : Moves source s a s') (ha : a.Tokened) :
    Exact source s' := by
  cases hmoves with
  | quiet hquiet =>
      refine ⟨fun ht => ?_, fun ht => ?_, ?_, fun hc => ?_⟩
      · rw [hquiet.sent]
        exact h.fresh (hquiet.token.symm.trans ht)
      · rw [hquiet.token] at ht ⊢
        exact h.token ht
      · rw [hquiet.sent]
        exact h.order
      · rw [hquiet.sent]
        exact h.once (hquiet.cancelled.symm.trans hc)
  | enter hstart hquiet =>
      rename_i c' start
      rcases hi.enter start with ⟨htoken, he⟩ | ⟨place, hplace, -, -, he⟩
      · have hsent : sent c' = [] := hquiet.sent.trans (h.fresh htoken)
        have hshown : shown source
            { s with start, position := start, collector := c' } = [] := by
          rw [shown, Feed.slice_of_le (Nat.le_refl _)]
          rfl
        rw [he]
        refine ⟨fun _ => hsent, fun ht => ?_, ?_, fun _ => ?_⟩
        · exact absurd (hquiet.token.trans htoken) ht
        · rw [hsent]
          exact List.nil_sublist _
        · exact hsent.trans hshown.symm
      · -- the place of the token is the one that was read up to
        have htoken : s.collector.pageToken ≠ "" := by
          intro htoken
          rw [htoken, hi.named] at hplace
          cases hplace
        obtain rfl : s.position = place :=
          Option.some.inj ((h.token htoken).symm.trans hplace)
        rw [he]
        refine ⟨fun ht => ?_, fun ht => ?_, ?_, fun hc => ?_⟩
        · exact absurd (hquiet.token.symm.trans ht) htoken
        · show s.issued.lookup c'.pageToken = some s.position
          rw [hquiet.token]
          exact h.token htoken
        · exact hquiet.sent ▸ h.order
        · exact hquiet.sent.trans (h.once (hquiet.cancelled.symm.trans hc))
  | received hfits =>
      rename_i stop nextPageToken offlineAt
      obtain ⟨htoken, hcancelled, hsent, -⟩ := received_spec source
        ⟨nextPageToken, slice s.timeline s.position stop, offlineAt⟩ s.collector
      have hne : nextPageToken ≠ "" := ha
      rw [if_pos hne] at htoken
      have hshown : ∀ c' issued, shown source
          { s with issued, position := stop, collector := c' }
          = shown source s ++ (slice s.timeline s.position stop).filterMap
            (youtubeMessage source) := by
        intro c' issued
        rw [shown, shown, ← List.filterMap_append,
          Feed.slice_append hi.low hfits.1]
      refine ⟨fun ht => ?_, fun _ => ?_, ?_, fun hc => ?_⟩
      · exact absurd (htoken.symm.trans ht) hne
      · rw [htoken, if_neg hne, List.lookup_cons, beq_self_eq_true]
      · rw [hsent, hshown]
        exact h.order.append_right _
      · rw [hsent, hshown, h.once (hcancelled.symm.trans hc)]
  | append =>
      have hshown : ∀ item, shown source
          { s with timeline := s.timeline ++ [item] } = shown source s := by
        intro item
        rw [shown, shown, Feed.slice_grow _ hi.high]
      refine ⟨h.fresh, h.token, ?_, fun hc => ?_⟩
      · rw [hshown]
        exact h.order
      · rw [hshown]
        exact h.once hc
  | give houtbox hcancelled =>
      refine ⟨fun ht => ?_, h.token, (sent_give houtbox).trans h.order,
        fun hc => ?_⟩
      · exact List.sublist_nil.mp (h.fresh ht ▸ sent_give houtbox)
      · rw [hcancelled] at hc
        cases hc
  | cancel => exact ⟨h.fresh, h.token, h.order, fun hc => by cases hc⟩

-- ================================== sessions

/-- A session is opened with the last token that a response carried. -/
def Resumes (before : List Entry) (e : Entry) : Prop :=
  ∀ pageToken, e = .opened pageToken → pageToken = lastToken before

/-- What the log says about the token and the delay that are kept. -/
structure Logged (c : Collector) : Prop where
  token : c.pageToken = lastToken c.log
  opened : History.Justified Resumes c.log
  paced : Backoff.Paced Entry.wait Entry.resets retryStart retryMax c.log
    c.retry

theorem lastToken_snoc (log : List Entry) (e : Entry) :
    lastToken (log ++ [e]) = match e with
      | .joined _ => ""
      | .received nextPageToken =>
          if nextPageToken ≠ "" then nextPageToken else lastToken log
      | _ => lastToken log := by
  unfold lastToken
  rw [List.foldl_append]
  cases e <;> rfl

theorem Logged.of_eq (h : Logged c) (hlog : c'.log = c.log)
    (htoken : c'.pageToken = c.pageToken) (hretry : c'.retry = c.retry) :
    Logged c' := by
  constructor
  · rw [htoken, hlog]
    exact h.token
  · rw [hlog]
    exact h.opened
  · rw [hlog, hretry]
    exact h.paced

theorem Logged.check (h : Logged c) : Logged (c.check source) := by
  unfold Collector.check
  split
  case h_1 => exact h.of_eq rfl rfl rfl
  case h_2 => split <;> exact h.of_eq rfl rfl rfl
  case h_3 => exact h.of_eq rfl rfl rfl
  case h_4 => exact h

theorem Logged.handle (h : Logged c) (cause : Failure) :
    Logged (c.handle source cause) := by
  unfold Collector.handle
  split
  case isTrue => exact h.of_eq rfl rfl rfl
  case isFalse => split <;> exact h.of_eq rfl rfl rfl

theorem Logged.close (h : Logged c) (cause failure : Option Failure) :
    Logged (c.close source cause failure) := by
  unfold Collector.close
  split
  case isTrue => exact h.of_eq rfl rfl rfl
  case isFalse =>
    split
    case h_1 => exact h.of_eq rfl rfl rfl
    case h_2 => exact h.handle _

theorem Logged.openedCall (h : Logged c) (failure : Option Failure) :
    Logged (c.opened source failure) := by
  have hopened : Logged { c with log := c.log ++ [.opened c.pageToken] } := by
    refine ⟨?_, h.opened.snoc fun token he => ?_, h.paced.snoc rfl rfl⟩
    · rw [lastToken_snoc]
      exact h.token
    · cases he
      exact h.token
  unfold Collector.opened
  cases failure with
  | none => exact hopened.of_eq rfl rfl rfl
  | some cause => exact hopened.handle cause

theorem Logged.discovered (h : Logged c)
    (result : Except ProviderError String) :
    Logged (c.discovered source result) := by
  unfold Collector.discovered
  split
  case h_1 => exact h.of_eq rfl rfl rfl
  case h_2 liveChatID =>
    split
    case isTrue => exact h.of_eq rfl rfl rfl
    case isFalse =>
      refine ⟨?_, h.opened.snoc fun token he => (by cases he), ?_⟩
      · exact (lastToken_snoc c.log (.joined liveChatID)).symm
      · exact h.paced.snoc_reset (by decide) rfl rfl

theorem Logged.received (h : Logged c) (response : Response) :
    Logged (c.received source response) := by
  have hreceived : Logged { c with
      retry := retryStart
      pageToken := if response.nextPageToken ≠ "" then response.nextPageToken
        else c.pageToken
      log := c.log ++ [.received response.nextPageToken] } := by
    refine ⟨?_, h.opened.snoc fun token he => (by cases he), ?_⟩
    · rw [lastToken_snoc, ← h.token]
    · exact h.paced.snoc_reset (by decide) rfl rfl
  unfold Collector.received
  simp only
  split <;> exact hreceived.of_eq rfl rfl rfl

theorem Logged.waited (h : Logged c) (elapsed : Bool) :
    Logged (c.waited source elapsed) := by
  unfold Collector.waited
  cases elapsed with
  | false => exact h.of_eq rfl rfl rfl
  | true =>
      refine ⟨?_, h.opened.snoc fun token he => (by cases he), ?_⟩
      · exact h.token.trans (lastToken_snoc c.log (.waited c.retry)).symm
      · exact h.paced.snoc_wait rfl rfl

/-- A step of the collector. -/
theorem Logged.proceed (h : Logged s.collector) (a : Action) :
    Logged (s.proceed source a).collector := by
  unfold System.proceed
  split
  case h_1 => exact h.check
  case h_2 =>
    split
    case isTrue => exact h.discovered _
    case isFalse => exact h
  case h_3 =>
    split
    case isTrue => exact h.openedCall _
    case isFalse => exact h
  case h_4 =>
    split
    case isTrue => exact h.received _
    case isFalse => exact h
  case h_5 => split <;> exact h.of_eq rfl rfl rfl
  case h_6 =>
    split
    case h_1 => exact h.close _ _
    case h_2 => exact h
  case h_7 =>
    split
    case isTrue => exact h.waited _
    case isFalse => exact h
  case h_8 => split <;> exact h.of_eq rfl rfl rfl
  case h_9 => exact h

theorem Logged.step (h : Logged s.collector) (a : Action) :
    Logged (s.step source a).collector := by
  unfold System.step
  split
  case h_1 => exact h
  case h_2 => exact h.of_eq rfl rfl rfl
  case h_3 =>
    show Logged s.collector.send
    unfold Collector.send
    split
    case h_1 => exact h
    case h_2 => exact h.of_eq rfl rfl rfl
    case h_3 => exact h.of_eq rfl rfl rfl
  case h_4 =>
    split
    case h_1 => exact h.proceed _
    case h_2 =>
      split
      case h_1 => split <;> exact h.of_eq rfl rfl rfl
      case h_2 => exact h

-- ====================================== runs

/-- A run of the collector and its surroundings. -/
def streamed (source : StreamSource) (acts : List Action) : System :=
  Run.run (System.step source) (System.init source) acts

theorem sent_start : sent (Collector.start source) = [] := by
  unfold Collector.start
  split
  case isTrue => rfl
  case isFalse => exact sent_setState "connecting" {}

theorem inv_init : Inv source (System.init source) := by
  have htoken : (Collector.start source).pageToken = "" := by
    unfold Collector.start
    split <;> rfl
  refine ⟨fun _ => htoken, Nat.le_refl _, Nat.le_refl _, rfl,
    fun ht => absurd htoken ht, fun _ m hm => ?_, fun m hm => ?_⟩
  · cases hm
  · have hm : m ∈ sent (Collector.start source) := hm
    rw [sent_start] at hm
    cases hm

theorem exact_init : Exact source (System.init source) := by
  refine ⟨fun _ => sent_start, fun ht => ?_, ?_, fun _ => sent_start⟩
  · refine absurd ?_ ht
    unfold System.init Collector.start
    split <;> rfl
  · show (sent (Collector.start source)).Sublist _
    rw [sent_start]
    exact List.nil_sublist _

theorem inv_streamed (acts : List Action) : Inv source (streamed source acts) :=
  Run.run_preserves inv_init (fun _ a h => h.moves (step_moves h.early a)) acts

theorem exact_streamed {acts : List Action} (hacts : ∀ a ∈ acts, a.Tokened) :
    Exact source (streamed source acts) := by
  have hboth : Inv source (streamed source acts)
      ∧ Exact source (streamed source acts) := by
    refine Run.run_preserves_of_mem (P := fun s => Inv source s
      ∧ Exact source s) ⟨inv_init, exact_init⟩ fun s a ha h => ?_
    have hmoves : Moves source s a (s.step source a) :=
      step_moves h.1.early a
    exact ⟨h.1.moves hmoves, h.2.moves h.1 hmoves (hacts a ha)⟩
  exact hboth.2

theorem logged_streamed (acts : List Action) :
    Logged (streamed source acts).collector := by
  have hinit : Logged (System.init source).collector := by
    have hempty : Logged {} := by
      exact ⟨rfl, History.justified_nil, Backoff.Paced.init (by decide)⟩
    unfold System.init Collector.start
    split <;> exact hempty.of_eq rfl rfl rfl
  exact Run.run_preserves (P := fun s : System => Logged s.collector) hinit
    (fun _ a h => h.step a) acts

-- =================================== results

/-- In every run, each message that is sent is one of the chat; and until
the context is cancelled, all that the chat showed is sent, from where
the last session that was opened without a token began to where the
current one has come. Where each response carries a token, that is all
that is sent, once and in order, and what is left out after the context
was cancelled changes only that it is a part. -/
theorem chat_read (acts : List Action) :
    (∀ m ∈ sent (streamed source acts).collector,
        ∃ item ∈ (streamed source acts).timeline,
          youtubeMessage source item = some m)
      ∧ ((streamed source acts).collector.cancelled = false →
        ∀ m ∈ shown source (streamed source acts),
          m ∈ sent (streamed source acts).collector)
      ∧ ((∀ a ∈ acts, a.Tokened) →
        (sent (streamed source acts).collector).Sublist
            (shown source (streamed source acts))
          ∧ ((streamed source acts).collector.cancelled = false →
            sent (streamed source acts).collector
              = shown source (streamed source acts))) := by
  have hi : Inv source (streamed source acts) := inv_streamed acts
  refine ⟨hi.sound, hi.covered, fun hacts => ?_⟩
  have he : Exact source (streamed source acts) := exact_streamed hacts
  exact ⟨he.order, he.once⟩

/-- Each session is opened with the last token that a response carried
since the chat was joined, and each wait lasts as long as the waits since
the last response make it, from five seconds to a minute. -/
theorem sessions_resume (acts : List Action) :
    History.Justified (fun before e =>
      (∀ pageToken, e = .opened pageToken → pageToken = lastToken before)
        ∧ ∀ seconds, e = .waited seconds →
          seconds = min (5 * 2 ^ Backoff.streak Entry.wait Entry.resets before)
            60) (streamed source acts).collector.log := by
  have h : Logged (streamed source acts).collector := logged_streamed acts
  intro before e after hlog
  refine ⟨h.opened before e after hlog, fun seconds he => ?_⟩
  refine h.paced.waits before e after hlog seconds ?_
  rw [he]
  rfl

end StreamBrew.Chat.Youtube
